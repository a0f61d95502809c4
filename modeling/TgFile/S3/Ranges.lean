import TgFile.S3.ListV2

/-! # Ranges of an object

`DownloadObject` decides with a parser of its own whether `http.ServeContent` will answer with a
part of the object, and sends the checksums of the object and the overrides of the response headers
only when it expects the whole. -/

namespace TgFile.S3

open Go Result Store

variable {s : Text} {size : Int}

/-- `strconv.ParseInt` in base ten. -/
def parseInt (s : Text) : Option Int :=
  (atoi (.text s)).filter fun n => -2 ^ 63 ≤ n ∧ n < 2 ^ 63

/-- `strings.Cut` at the first `-`. -/
def cutDash (s : Text) : Option (Text × Text) :=
  if '-' ∈ s then some (s.takeWhile (· ≠ '-'), (s.dropWhile (· ≠ '-')).tail) else none

/-- The `Range` and `If-Range` headers of a GetObject request; `net/http` has trimmed them. -/
structure RangeHeaders where
  range : Text
  ifRange : Text
  trimmed : trimString ifRange = ifRange

/-- `http.ParseTime`, in milliseconds.  A date starts with the name of a day. -/
structure TimeParser where
  parse : Text → Option Int
  dates : ∀ {value}, value = [] ∨ ['"'] <+: value ∨ ['W', '/'] <+: value → parse value = none

/-! ## What `http.ServeContent` answers -/

/-- Why `parseRange` fails. -/
inductive RangeError
  | invalid
  | noOverlap
  deriving DecidableEq

/-- One item of `parseRange`: the start and the length of a range, nothing when it lies behind the
end of the content. -/
def parseRangeItem (size : Int) (item : Text) : Except RangeError (Option (Int × Int)) :=
  match cutDash item with
  | none => .error .invalid
  | some (start, stop) =>
    let start := trimString start
    let stop := trimString stop
    if start = [] then
      match parseInt stop with
      | none => .error .invalid
      | some suffix =>
        if ['-'] <+: stop ∨ suffix < 0 then .error .invalid
        else .ok (some (size - min suffix size, min suffix size))
    else
      match parseInt start with
      | none => .error .invalid
      | some first =>
        if first < 0 then .error .invalid
        else if size ≤ first then .ok none
        else if stop = [] then .ok (some (first, size - first))
        else
          match parseInt stop with
          | none => .error .invalid
          | some last =>
            if last < first then .error .invalid
            else .ok (some (first, min last (size - 1) - first + 1))

/-- `parseRange` of `net/http`: the ranges with their lengths. -/
def parseRange (value : Text) (size : Int) : Except RangeError (List (Int × Int)) := do
  if value = [] then pure []
  else do
    require ("bytes=".toList <+: value) RangeError.invalid
    let items := ((value.drop 6).splitOn ',').map trimString
    let found ← (items.filter (· ≠ [])).mapM (parseRangeItem size)
    require (none ∉ found ∨ found.filterMap id ≠ []) RangeError.noOverlap
    pure (found.filterMap id)

/-- The status `ServeContent` answers with once the preconditions have left a range. -/
def servedStatus (range : Text) (size : Int) : Nat :=
  match parseRange range size with
  | .error .noOverlap => if size = 0 then 200 else 416
  | .error .invalid => 416
  | .ok ranges => if size < (ranges.map Prod.snd).sum ∨ ranges = [] then 200 else 206

/-- A character of an entity tag between its quotes. -/
def isETagChar (c : Char) : Bool := c = '!' ∨ '#' ≤ c ∧ c ≤ '~' ∨ 128 ≤ c.toNat

/-- `scanETag`: the entity tag a header starts with, if any. -/
def scanETag (value : Text) : Text :=
  let value := trimString value
  let weak := if ['W', '/'] <+: value then ['W', '/'] else []
  match value.drop weak.length with
  | '"' :: rest =>
    if ['"'] <+: rest.dropWhile isETagChar then weak ++ '"' :: rest.takeWhile isETagChar ++ ['"']
    else []
  | _ => []

section
variable (times : TimeParser)

/-- `checkIfRange`: the range is not dropped. -/
def checkIfRange (value : Text) (info : S3ObjectInfo) : Bool :=
  if value = [] then true
  else if scanETag value ≠ [] then
    scanETag value = info.metadata.etag ∧ ['"'] <+: info.metadata.etag
  else
    match times.parse value with
    | none => false
    | some date => date / 1000 = info.link.mtime / 1000

/-! ## The handler -/

/-- The handler's reading of `If-Range`. -/
def objectRangeApplies (value : Text) (info : S3ObjectInfo) : Bool :=
  if value = [] then true
  else if ['"'] <+: value ∨ ['W', '/'] <+: value then
    ¬ ['W', '/'] <+: info.metadata.etag ∧ value = info.metadata.etag
  else
    match times.parse value with
    | none => false
    | some timestamp => truncateSecond info.link.mtime ≤ truncateSecond timestamp

end

/-- The answer 416. -/
def APIError.invalidRange : APIError :=
  ⟨416, "InvalidRange", "The requested range is not satisfiable."⟩

/-- A range of the last bytes. -/
def validateSuffixRange (endText : Text) : Except APIError Unit :=
  require (∃ suffix ∈ parseInt endText, 0 < suffix) APIError.invalidRange

/-- A range from an offset on. -/
def validateStartRange (startText endText : Text) (fileSize : Int) : Except APIError Unit :=
  require (∃ start ∈ parseInt startText, 0 ≤ start ∧ start < fileSize ∧
    (endText = [] ∨ ∃ last ∈ parseInt endText, start ≤ last)) APIError.invalidRange

/-- `validateObjectRange` of a range that applies. -/
def validateRange (value : Text) (fileSize : Int) : Except APIError Unit := do
  require ("bytes=".toList <+: value ∧ ∀ c ∈ value, c ≠ ',' ∧ c ≠ ' ' ∧ c ≠ '\t')
    APIError.invalidRange
  match cutDash (value.drop 6) with
  | none => .error .invalidRange
  | some (startText, endText) =>
    require ((startText ≠ [] ∨ endText ≠ []) ∧ fileSize ≠ 0) APIError.invalidRange
    if startText = [] then validateSuffixRange endText
    else validateStartRange startText endText fileSize

/-- What a GetObject request is answered with. -/
structure ObjectResponse where
  status : Nat
  /-- The checksum headers and the overrides of the response headers are set. -/
  described : Bool
  deriving DecidableEq

/-- `DownloadObject` after the object has been found. -/
def downloadObject (times : TimeParser) (headers : RangeHeaders) (info : S3ObjectInfo) :
    ObjectResponse :=
  let applies := objectRangeApplies times headers.ifRange info
  let includeChecksum := headers.range = [] ∨ applies = false
  let validated :=
    if includeChecksum then .ok () else validateRange headers.range info.link.fileSize
  match validated with
  | .error apiError => ⟨apiError.httpStatus, false⟩
  | .ok () =>
    let range := if checkIfRange times headers.ifRange info then headers.range else []
    ⟨servedStatus range info.link.fileSize, includeChecksum⟩

/-! ## Validated ranges -/

lemma parseInt_atoi {n : Int} (parsed : parseInt s = some n) : atoi (.text s) = some n :=
  (Option.filter_eq_some_iff.mp parsed).1

lemma digitsValue_some {digits : Text} {n : Nat}
    (parsed : atoi.digitsValue digits = some n) : digits.all Char.isDigit = true := by
  unfold atoi.digitsValue at parsed
  split_ifs at parsed with given
  exact given.2

lemma isWhitespace_of_isDigit {c : Char} (digit : c.isDigit = true) : c.isWhitespace = false := by
  refine Bool.eq_false_iff.mpr fun white => ?_
  simp only [Char.isWhitespace, Bool.or_eq_true, decide_eq_true_eq] at white
  rcases white with ((rfl | rfl) | rfl) | rfl <;> exact absurd digit (by decide)

/-- A number has no white space, and a positive one no minus sign. -/
lemma parseInt_shape {n : Int} (parsed : parseInt s = some n) :
    (∀ c ∈ s, c.isWhitespace = false) ∧ (0 < n → ¬ ['-'] <+: s) := by
  have digitClean : ∀ {digits : Text} {m : Nat}, atoi.digitsValue digits = some m →
      ∀ c ∈ digits, c.isWhitespace = false := by
    intro digits m parsed c member
    exact isWhitespace_of_isDigit (List.all_eq_true.mp (digitsValue_some parsed) c member)
  have value := parseInt_atoi parsed
  unfold atoi at value
  split at value
  · cases value
  · rename_i digits same
    obtain rfl := GoString.text.inj same
    cases number : atoi.digitsValue digits with
    | none => simp [number] at value
    | some m =>
      have negative : -(m : Int) = n := by simpa [number] using value
      refine ⟨?_, fun positive => absurd positive (by omega)⟩
      simpa [show Char.isWhitespace '-' = false by decide] using digitClean number
  · rename_i digits same
    obtain rfl := GoString.text.inj same
    cases number : atoi.digitsValue digits with
    | none => simp [number] at value
    | some m =>
      refine ⟨?_, fun _ => by simp⟩
      simpa [show Char.isWhitespace '+' = false by decide] using digitClean number
  · rename_i digits noMinus _ same
    obtain rfl := GoString.text.inj same
    cases number : atoi.digitsValue s with
    | none => simp [number] at value
    | some m =>
      refine ⟨digitClean number, ?_⟩
      rintro - ⟨rest, rfl⟩
      exact noMinus rest rfl

lemma trimString_of_clean (clean : ∀ c ∈ s, c.isWhitespace = false) : trimString s = s := by
  have keep : ∀ t : Text, (∀ c ∈ t, c.isWhitespace = false) →
      t.dropWhile Char.isWhitespace = t := by
    intro t clean
    cases t with
    | nil => rfl
    | cons c t => simp [clean c List.mem_cons_self]
  have back := keep s.reverse fun c member => clean c (List.mem_reverse.mp member)
  rw [trimString, trim, keep s clean, back, List.reverse_reverse]

lemma clean_of_number (number : s = [] ∨ ∃ n, parseInt s = some n) :
    ∀ c ∈ s, c.isWhitespace = false := by
  rcases number with rfl | ⟨n, parsed⟩
  · simp
  · exact (parseInt_shape parsed).1

lemma cutDash_some {start stop : Text} (cut : cutDash s = some (start, stop)) :
    s = start ++ '-' :: stop := by
  unfold cutDash at cut
  split_ifs at cut with dash
  obtain ⟨rfl, rfl⟩ := Prod.mk.inj (Option.some.inj cut)
  have rest : s.dropWhile (· ≠ '-') ≠ [] := by
    intro none
    have all := List.dropWhile_eq_nil_iff.mp none '-' dash
    simp at all
  obtain ⟨c, tail, same⟩ := List.exists_cons_of_ne_nil rest
  have stops := List.head_dropWhile_not (fun x => decide (x ≠ '-')) rest
  simp only [same, List.head_cons, decide_eq_false_iff_not, not_not] at stops
  have whole := List.takeWhile_append_dropWhile (p := fun x => decide (x ≠ '-')) (l := s)
  rw [same, stops] at whole
  rw [same, List.tail_cons, whole]

/-- What the handler lets through of an item is one satisfiable range. -/
lemma parseRangeItem_of_valid {item start stop : Text} (cut : cutDash item = some (start, stop))
    (valid : (if start = [] then validateSuffixRange stop
      else validateStartRange start stop size) = .ok ()) :
    (∀ c ∈ item, c.isWhitespace = false) ∧
      ∃ range, parseRangeItem size item = .ok (some range) ∧ range.2 ≤ size := by
  have dash : Char.isWhitespace '-' = false := by decide
  split_ifs at valid with empty
  · obtain ⟨suffix, parsed, positive⟩ := require_ok.mp valid
    obtain ⟨clean, unsigned⟩ := parseInt_shape parsed
    refine ⟨?_, (size - min suffix size, min suffix size), ?_, Int.min_le_right _ _⟩
    · simpa [cutDash_some cut, empty, dash] using clean
    · have inside : ¬ (['-'] <+: stop ∨ suffix < 0) :=
        not_or.mpr ⟨unsigned positive, by omega⟩
      simp [parseRangeItem, cut, empty, trimString_of_clean clean, Option.mem_def.mp parsed, inside,
        show trimString [] = [] from rfl]
  · obtain ⟨first, parsed, nonneg, within, last⟩ := require_ok.mp valid
    have startClean := (parseInt_shape parsed).1
    have stopClean := clean_of_number (last.imp_right fun found => found.imp fun _ => And.left)
    refine ⟨?_, ?_⟩
    · rw [cutDash_some cut]
      intro c member
      rcases List.mem_append.mp member with inStart | inStop
      · exact startClean c inStart
      · rcases List.mem_cons.mp inStop with rfl | inStop
        · exact dash
        · exact stopClean c inStop
    · simp only [parseRangeItem, cut, trimString_of_clean startClean, trimString_of_clean stopClean,
        empty, if_false, Option.mem_def.mp parsed, Int.not_lt.mpr nonneg, Int.not_le.mpr within]
      rcases last with rfl | ⟨last, parsedLast, ordered⟩
      · exact ⟨_, rfl, by simp; omega⟩
      · have given : stop ≠ [] := by
          rintro rfl
          cases parsedLast
        simp only [given, if_false, Option.mem_def.mp parsedLast, Int.not_lt.mpr ordered]
        exact ⟨_, rfl, by simp; omega⟩

/-- A range that the handler lets through is answered with a part. -/
lemma servedStatus_of_validateRange {value : Text} (valid : validateRange value size = .ok ()) :
    servedStatus value size = 206 := by
  simp only [validateRange, bind_ok, require_ok] at valid
  obtain ⟨_, ⟨bytes, plain⟩, rest⟩ := valid
  cases cut : cutDash (value.drop 6) with
  | none =>
    rw [cut] at rest
    cases rest
  | some pair =>
    obtain ⟨start, stop⟩ := pair
    simp only [cut, bind_ok] at rest
    obtain ⟨_, -, rest⟩ := rest
    obtain ⟨clean, range, parsed, small⟩ := parseRangeItem_of_valid cut rest
    have nonempty : value ≠ [] := by
      rintro rfl
      exact absurd bytes (by decide)
    have single : (value.drop 6).splitOn ',' = [value.drop 6] := by
      refine List.splitOnP_eq_singleton fun c member => ?_
      simpa using (plain c (List.mem_of_mem_drop member)).1
    have someItem : value.drop 6 ≠ [] := by simp [cutDash_some cut]
    have ranges : parseRange value size = .ok [range] := by
      rw [parseRange, if_neg nonempty, require, if_pos bytes, single]
      simp [require, trimString_of_clean clean, someItem, parsed, bind, Except.bind, pure,
        Except.pure]
    simp [servedStatus, ranges, Int.not_lt.mpr small]

/-! ## Agreement -/

section
variable (times : TimeParser)

/-- Only the handler takes the range: `If-Range` is the ETag of the object but not one entity tag,
or a date after the second of the modification. -/
def HandlerTakes (value : Text) (info : S3ObjectInfo) : Prop :=
  (['"'] <+: value ∧ value = info.metadata.etag ∧ scanETag value ≠ value) ∨
    ∃ date ∈ times.parse value, info.link.mtime / 1000 < date / 1000

/-- Only `ServeContent` takes the range: something follows the ETag of the object in `If-Range`. -/
def ServerTakes (value : Text) (info : S3ObjectInfo) : Prop :=
  ['"'] <+: info.metadata.etag ∧ scanETag value = info.metadata.etag ∧ value ≠ info.metadata.etag

/-- A header that asks for the whole object in the end: it has no range, or ranges of more bytes
than the object has, or ranges behind the end of an empty object. -/
def AsksForWhole (range : Text) (size : Int) : Prop :=
  match parseRange range size with
  | .ok ranges => ranges = [] ∨ size < (ranges.map Prod.snd).sum
  | .error reason => reason = .noOverlap ∧ size = 0

/-- A range that only the handler takes is one it refuses, and one that only `ServeContent` takes
asks for the whole object. -/
def RangeAgreed (headers : RangeHeaders) (info : S3ObjectInfo) : Prop :=
  headers.range = [] ∨
    (HandlerTakes times headers.ifRange info →
      validateRange headers.range info.link.fileSize ≠ .ok ()) ∧
    (ServerTakes headers.ifRange info → AsksForWhole headers.range info.link.fileSize)

end

/-- Where a trimmed header starts with an entity tag, it starts with a quote or `W/`. -/
lemma scanETag_nil {value : Text} (trimmed : trimString value = value)
    (untagged : ¬(['"'] <+: value ∨ ['W', '/'] <+: value)) : scanETag value = [] := by
  obtain ⟨noQuote, strong⟩ := not_or.mp untagged
  unfold scanETag
  simp only [trimmed, if_neg strong, List.length_nil, List.drop_zero]
  split
  · exact absurd ⟨_, rfl⟩ noQuote
  · rfl

/-- How the handler and `ServeContent` read `If-Range` to different effect. -/
lemma ifRange_cases (times : TimeParser) (headers : RangeHeaders) (info : S3ObjectInfo) :
    (objectRangeApplies times headers.ifRange info = true ∧
        checkIfRange times headers.ifRange info = false ↔
      HandlerTakes times headers.ifRange info) ∧
    (objectRangeApplies times headers.ifRange info = false ∧
        checkIfRange times headers.ifRange info = true ↔
      ServerTakes headers.ifRange info) := by
  obtain ⟨range, value, trimmed⟩ := headers
  have strong : ['"'] <+: info.metadata.etag → ¬['W', '/'] <+: info.metadata.etag := by
    rintro ⟨rest, same⟩ ⟨other, weak⟩
    rw [← same] at weak
    exact absurd (List.cons.inj weak).1 (by decide)
  have quoted : ['"'] <+: info.metadata.etag → info.metadata.etag ≠ [] := by
    rintro ⟨rest, same⟩ empty
    rw [← same] at empty
    cases empty
  unfold HandlerTakes ServerTakes objectRangeApplies checkIfRange
  by_cases none : value = []
  · have date := times.dates (.inl none)
    have noTag : scanETag value = [] := by
      rw [none]
      rfl
    have noQuote : ¬['"'] <+: value := by simp [none]
    rw [if_pos none, if_pos none]
    refine ⟨iff_of_false (by simp) ?_, iff_of_false (by simp) ?_⟩
    · simp [noQuote, date]
    · rintro ⟨quote, same, -⟩
      exact quoted quote (same.symm.trans noTag)
  rw [if_neg none, if_neg none]
  by_cases tag : ['"'] <+: value ∨ ['W', '/'] <+: value
  · have date := times.dates (.inr tag)
    rw [if_pos tag]
    simp only [date]
    constructor
    · constructor
      · rintro ⟨handler, server⟩
        obtain ⟨notWeak, rfl⟩ := of_decide_eq_true handler
        have quote := tag.resolve_right notWeak
        refine .inl ⟨quote, rfl, fun scanned => ?_⟩
        rw [scanned, if_pos none] at server
        exact of_decide_eq_false server ⟨rfl, quote⟩
      · rintro (⟨quote, rfl, other⟩ | ⟨date, isDate, -⟩)
        · refine ⟨decide_eq_true ⟨strong quote, rfl⟩, ?_⟩
          split_ifs with scanned
          · exact decide_eq_false fun both => other both.1
          · rfl
        · cases isDate
    · constructor
      · rintro ⟨handler, server⟩
        split_ifs at server with scanned
        obtain ⟨same, quote⟩ := of_decide_eq_true server
        exact ⟨quote, same, fun whole => of_decide_eq_false handler ⟨strong quote, whole⟩⟩
      · rintro ⟨quote, same, more⟩
        refine ⟨decide_eq_false fun both => more both.2, ?_⟩
        rw [if_pos (same.trans_ne (quoted quote))]
        exact decide_eq_true ⟨same, quote⟩
  · have noTag : scanETag value = [] := scanETag_nil trimmed tag
    rw [if_neg tag, if_neg (not_not.mpr noTag)]
    refine ⟨?_, iff_of_false ?_ ?_⟩
    · have noQuote := (not_or.mp tag).1
      cases times.parse value with
      | none => simp [noQuote]
      | some date =>
        simp only [noQuote, Option.mem_some_iff, false_and, false_or, exists_eq_left',
          decide_eq_true_eq, decide_eq_false_iff_not]
        unfold truncateSecond
        omega
    · cases times.parse value with
      | none => simp
      | some date =>
        simp only [decide_eq_true_eq, decide_eq_false_iff_not]
        unfold truncateSecond
        omega
    · rintro ⟨quote, same, -⟩
      exact quoted quote (same.symm.trans noTag)

lemma servedStatus_nil (size : Int) : servedStatus [] size = 200 := by
  simp [servedStatus, parseRange, pure, Except.pure]

lemma servedStatus_whole (range : Text) (size : Int) :
    servedStatus range size = 200 ↔ AsksForWhole range size := by
  unfold servedStatus AsksForWhole
  cases parseRange range size with
  | ok ranges =>
    simp only [ite_eq_left_iff, Nat.reduceEqDiff, imp_false, not_not]
    exact or_comm
  | error reason => cases reason <;> simp

lemma validateRange_error {value : Text} {apiError : APIError}
    (refused : validateRange value size = .error apiError) : apiError = .invalidRange := by
  by_contra different
  refine absurd refused (show Avoids apiError (validateRange value size) from ?_)
  have other : APIError.invalidRange ≠ apiError := Ne.symm different
  refine avoids_bind.mpr ⟨avoids_require.mpr (.inr other), fun _ _ => ?_⟩
  cases cutDash (value.drop 6) with
  | none => exact avoids_error.mpr other
  | some texts => simp [validateSuffixRange, validateStartRange, other]

/-- An object modified at the first second, with the ETag `"a"`. -/
def rangedObject : S3ObjectInfo :=
  ⟨⟨2, "/b/k".toList, 7, 3, 420, 0, 1000, false⟩,
    ⟨2, "\"a\"".toList, [], [], [], [], [], [], [], [], [], [], [], 0, 1000⟩⟩

/-- A parser that knows the second second. -/
def secondSecond : TimeParser where
  parse value := if value = "Thu, 01 Jan 1970 00:00:02 GMT".toList then some 2000 else none
  dates noDate := by
    rw [if_neg]
    rintro rfl
    exact absurd noDate (by decide)

end TgFile.S3
