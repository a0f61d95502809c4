import TgFile.Go.Strings
import TgFile.Store.Model

/-! # Conditions of WebDAV requests

Entity tags, the conditional headers, and the `If` header as the handler parses it. -/

namespace TgFile.WebDAV

open Go Result

/-- `WebDAVIfTerm`: a state token or an entity tag, possibly negated. -/
structure IfTerm where
  not : Bool
  lockToken : Text
  etag : Text
  deriving DecidableEq, Repr

/-- `WebDAVIfList`; an untagged list has the empty resource. -/
structure IfList where
  resource : Text
  terms : List IfTerm
  deriving DecidableEq, Repr

/-- `WebDAVIfHeader`. -/
structure IfHeader where
  lists : List IfList
  deriving DecidableEq, Repr

/-- `WebDAVCondition`; the dates are in milliseconds. -/
structure Condition where
  ifMatch : Text
  ifNoneMatch : Text
  ifModifiedSince : Option Int
  ifUnmodifiedSince : Option Int
  ifHeader : Option IfHeader
  requestPath : Text
  deriving DecidableEq, Repr

/-- `FileLinkMeta`. -/
structure Link where
  entryID : Nat
  fileName : Text
  fileID : Nat
  fileSize : Int
  mode : Nat
  ctime : Int
  mtime : Int
  isDir : Bool
  deriving DecidableEq, Repr

/-- The entity tag of a File's content. -/
def etagOf (fileID : Nat) (fileSize : Int) : Text :=
  '"' :: decimal fileID ++ '-' :: decimalInt fileSize ++ ['"']

/-- The entity tag of a file. -/
def webDAVETag (link : Option Link) : Text :=
  match link with
  | none => []
  | some link => if link.isDir then [] else etagOf link.fileID link.fileSize

/-- The File of an entry: 0 for a directory, and an error for a file entry without one. -/
def entryFileID (entry : Entry) : Except Err Nat :=
  if entry.fileKind = .dir then .ok 0
  else
    match entry.refData with
    | none => .error .internal
    | some fileID => .ok fileID

/-- The link of a mapping. -/
def webDAVEntryToLink (resourcePath : Text) (entry : Entry) : Except Err Link := do
  let fileID ← entryFileID entry
  pure { entryID := entry.entryID, fileName := Path.base resourcePath, fileID := fileID,
         fileSize := entry.fileSize, mode := entry.fileMode, ctime := entry.ctime,
         mtime := entry.mtime, isDir := entry.fileKind = .dir }

/-- The tag is in the list of a header. -/
def webDAVETagListContains (value etag : Text) (weak : Bool) : Bool :=
  if value = ['*'] then true
  else
    let etag := if weak then trimFront etag ['W', '/'] else etag
    (value.splitOn ',').any fun candidate =>
      let candidate := trimSpace candidate
      (if weak then trimFront candidate ['W', '/'] else candidate) = etag

/-- The conditions on the entity tag hold. -/
def evaluateWebDAVETagCondition (etag : Text) (present : Bool) (condition : Condition) :
    Except Err Unit := do
  require (condition.ifMatch = [] ∨
    (present = true ∧ webDAVETagListContains condition.ifMatch etag false = true))
    Err.webDAVPrecondition
  require (condition.ifNoneMatch = [] ∨ present = false ∨
    ¬(condition.ifNoneMatch = ['*'] ∨
      webDAVETagListContains condition.ifNoneMatch etag true = true))
    Err.webDAVPrecondition

/-- The conditions on the time hold. -/
def evaluateWebDAVTimeCondition (link : Option Link) (condition : Condition) : Except Err Unit :=
  match link with
  | none => .ok ()
  | some link => do
      let modified := truncateSecond link.mtime
      require (condition.ifMatch ≠ [] ∨
        ∀ limit ∈ condition.ifUnmodifiedSince, modified ≤ truncateSecond limit)
        Err.webDAVPrecondition
      require (condition.ifNoneMatch ≠ [] ∨
        ∀ limit ∈ condition.ifModifiedSince, truncateSecond limit < modified)
        Err.webDAVPrecondition

/-- The link is `none` when the resource does not exist. -/
def evaluateWebDAVCondition (link : Option Link) (condition : Option Condition) : Except Err Unit :=
  match condition with
  | none => .ok ()
  | some condition => do
      evaluateWebDAVETagCondition (webDAVETag link) link.isSome condition
      evaluateWebDAVTimeCondition link condition

/-! ## The `If` header -/

/-- The resource a list is about. -/
def IfList.target (list : IfList) (requestPath : Text) : Text :=
  if list.resource = [] then requestPath else Path.clean list.resource

/-- The list is about the path. -/
def webDAVIfListApplies (list : IfList) (requestPath resourcePath : Text) : Bool :=
  list.target requestPath = resourcePath

/-- A condition of a list holds. -/
def webDAVIfTermSatisfied (term : IfTerm) (etag : Text) (locks : List WebDAVLock) : Bool :=
  let satisfied :=
    if term.lockToken ≠ [] then locks.any fun lock => lock.token = term.lockToken
    else if term.etag ≠ [] then webDAVETagListContains term.etag etag true
    else false
  if term.not then !satisfied else satisfied

/-- All conditions of a list hold. -/
def webDAVIfListSatisfied (list : IfList) (etag : Text) (locks : List WebDAVLock) : Bool :=
  list.terms.all fun term => webDAVIfTermSatisfied term etag locks

/-- The lists of the header, none when there is no header. -/
def Condition.lists (condition : Option Condition) : List IfList :=
  match condition with
  | none => []
  | some condition =>
    match condition.ifHeader with
    | none => []
    | some header => header.lists

/-- The path untagged lists are about. -/
def Condition.requested (condition : Option Condition) : Text :=
  match condition with
  | none => []
  | some condition => Path.clean condition.requestPath

/-- Some list is about the path. -/
def hasApplicableWebDAVIfList (condition : Option Condition) (resourcePath : Text) : Bool :=
  (Condition.lists condition).any fun list =>
    webDAVIfListApplies list (Condition.requested condition) (Path.clean resourcePath)

/-- Some list about the path holds. -/
def webDAVIfHeaderAllows (condition : Option Condition) (resourcePath etag : Text)
    (locks : List WebDAVLock) : Bool :=
  (Condition.lists condition).any fun list =>
    webDAVIfListApplies list (Condition.requested condition) (Path.clean resourcePath) &&
      webDAVIfListSatisfied list etag locks

end TgFile.WebDAV
