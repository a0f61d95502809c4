import Mathlib.Data.List.Infix
import TgFile.Go.Path

/-! # The XML of dead properties

The value of a dead property is stored as text and is read back inside a `wrapper` element, by the
validator of a manifest and by PROPFIND.  Texts are modelled by the tokens that `encoding/xml` finds
in them. -/

namespace TgFile.Xml

open Go

/-- A name with its namespace, which may be empty. -/
structure Name where
  space : Text
  localName : Text
  deriving DecidableEq

/-- The prefix of declarations. -/
def xmlnsPrefix : Text := "xmlns".toList

/-- The namespace of WebDAV. -/
def davNamespace : Text := "DAV:".toList

/-- What stands in a start tag: the declaration of a prefix, of the default namespace if the prefix
is empty, or an attribute. -/
inductive Attribute
  | declaration (label uri : Text)
  | plain (name : Name) (value : Text)
  deriving DecidableEq

/-- The name that the decoder reports. -/
def Attribute.name : Attribute → Name
  | .declaration label _ => if label = [] then ⟨[], xmlnsPrefix⟩ else ⟨xmlnsPrefix, label⟩
  | .plain name _ => name

/-- It declares a namespace. -/
def Attribute.isDeclaration : Attribute → Bool
  | .declaration _ _ => true
  | .plain _ _ => false

/-- A token that opens and closes nothing. -/
inductive Leaf
  | text (content : Text)
  | comment (content : Text)
  | procInst (target inst : Text)
  | directive (content : Text)
  deriving DecidableEq

/-- A token; `<a/>` is a start and a stop. -/
inductive Token
  | start (name : Name) (attributes : List Attribute)
  | stop (name : Name)
  | leaf (item : Leaf)
  deriving DecidableEq

/-- The token without declarations, which are no content. -/
def Token.content : Token → Token
  | .start name attributes => .start name (attributes.filter fun given => ¬given.isDeclaration)
  | token => token

/-! ## Decoding and encoding -/

/-- The decoder reads the tokens to their end: an end tag names the innermost open element, and no
element stays open. -/
def wellNested : List Name → List Token → Bool
  | elements, [] => elements = []
  | elements, .start name _ :: rest => wellNested (name :: elements) rest
  | [], .stop _ :: _ => false
  | name :: elements, .stop other :: rest => name = other ∧ wellNested elements rest
  | elements, .leaf _ :: rest => wellNested elements rest

/-- The element around a value that is decoded on its own. -/
def wrapper : Name := ⟨[], "wrapper".toList⟩

/-- The value between the tags of the wrapper. -/
def wrapped (value : List Token) : List Token := .start wrapper [] :: (value ++ [.stop wrapper])

/-- `validateXMLFragment`: the decoder finds no error in the wrapped value. -/
def validateXMLFragment (value : List Token) : Bool := wellNested [] (wrapped value)

/-- The attribute is taken for a declaration. -/
def Attribute.declares (given : Attribute) : Bool :=
  given.name.space = xmlnsPrefix ∨ given.name.space = [] ∧ given.name.localName = xmlnsPrefix

/-- `stripXMLNamespaceAttributes`, of a start tag. -/
def stripXMLNamespaceAttributes : Token → Token
  | .start name attributes => .start name (attributes.filter fun given => ¬given.declares)
  | token => token

/-- The loop of `isValidDirective` inside `depth` angle brackets, a quotation or a comment, after
the characters `seen`, the last one first. -/
def validDirective (depth : Nat) (quote : Option Char) (comment : Bool) (seen : Text) :
    Text → Bool
  | [] => depth = 0 ∧ quote = none ∧ comment = false
  | c :: rest =>
    if comment then
      validDirective depth quote (¬(c = '>' ∧ ['-', '-'] <+: seen)) (c :: seen) rest
    else if quote.isSome then
      validDirective depth (if quote = some c then none else quote) false (c :: seen) rest
    else if c = '\'' ∨ c = '"' then validDirective depth (some c) false (c :: seen) rest
    else if c = '<' then
      if "!--".toList <+: rest ∧ 3 < rest.length then
        validDirective depth none true (c :: seen) rest
      else validDirective (depth + 1) none false (c :: seen) rest
    else if c = '>' then depth ≠ 0 ∧ validDirective (depth - 1) none false (c :: seen) rest
    else validDirective depth none false (c :: seen) rest

/-- `EncodeToken` takes the leaf; it takes `<?xml …?>` only when nothing has been written. -/
def Leaf.encodable (written : Bool) : Leaf → Bool
  | .text _ => true
  | .comment content => ¬"-->".toList <:+: content
  | .procInst target inst => ¬(target = "xml".toList ∧ written) ∧ ¬"?>".toList <:+: inst
  | .directive content => validDirective 0 none false [] content

/-- `EncodeToken` takes the token; the decoder has seen to the names of the tags. -/
def Token.encodable (written : Bool) : Token → Bool
  | .leaf item => item.encodable written
  | _ => true

/-- The calls of `EncodeToken` for stripped tokens, nothing if one of them fails. -/
def encodeTokens : Bool → List Token → Option (List Token)
  | _, [] => some []
  | written, token :: rest =>
    if token.encodable written then
      (encodeTokens (written ∨ token ≠ .leaf (.text [])) rest).map
        (stripXMLNamespaceAttributes token :: ·)
    else none

/-- The tokens that the loop of `encodeInnerXML` keeps: what is at depth one opens or closes a
wrapper. -/
def innerTokens : Nat → List Token → List Token
  | _, [] => []
  | 0, .start _ _ :: rest => innerTokens 1 rest
  | depth + 1, .start name attributes :: rest =>
    .start name attributes :: innerTokens (depth + 2) rest
  | 0, .stop name :: rest => .stop name :: innerTokens 0 rest
  | 1, .stop _ :: rest => innerTokens 0 rest
  | depth + 2, .stop name :: rest => .stop name :: innerTokens (depth + 1) rest
  | depth, .leaf item :: rest => .leaf item :: innerTokens depth rest

/-- The loop of `encodeInnerXML`, which writes after the start tag of the property. -/
def copyInner (tokens : List Token) : Option (List Token) :=
    encodeTokens true (innerTokens 0 tokens)

variable {name : Name} {depth : Nat} {value tokens : List Token} {elements : List Name}

/-- No attribute is mistaken for a declaration. -/
def Token.honest : Token → Bool
  | .start _ attributes => attributes.all fun given => given.declares → given.isDeclaration
  | _ => true

/-- Every declaration is recognised. -/
lemma declares_of_isDeclaration {given : Attribute} (declared : given.isDeclaration = true) :
    given.declares = true := by
  cases given with
  | plain => cases declared
  | declaration label =>
    by_cases default : label = [] <;> simp [Attribute.declares, Attribute.name, default]

/-- Stripping removes the declarations and nothing else exactly from honest tokens. -/
lemma strip_eq_content_iff {token : Token} :
    stripXMLNamespaceAttributes token = token.content ↔ token.honest = true := by
  cases token with
  | stop => exact iff_of_true rfl rfl
  | leaf => exact iff_of_true rfl rfl
  | start name attributes =>
    simp only [Token.honest, List.all_eq_true, decide_eq_true_eq]
    constructor
    · intro same given member declares
      by_contra plain
      have kept : given ∈ attributes.filter fun given => ¬given.isDeclaration :=
        List.mem_filter.mpr ⟨member, decide_eq_true plain⟩
      rw [← (Token.start.inj same).2] at kept
      exact of_decide_eq_true (List.mem_filter.mp kept).2 declares
    · intro honest
      refine congrArg (Token.start name) (List.filter_congr fun given member => ?_)
      exact decide_eq_decide.mpr (not_congr ⟨honest given member, declares_of_isDeclaration⟩)

/-- What the encoder returns are the stripped tokens. -/
lemma eq_of_encodeTokens {written : Bool} {encoded : List Token}
    (run : encodeTokens written tokens = some encoded) :
    encoded = tokens.map stripXMLNamespaceAttributes := by
  induction tokens generalizing written encoded with
  | nil => exact (Option.some.inj run).symm
  | cons token tokens ih =>
    rw [encodeTokens] at run
    split_ifs at run with taken
    obtain ⟨rest, encodes, rfl⟩ := Option.map_eq_some_iff.mp run
    rw [ih encodes, List.map_cons]

/-- Behind other output the encoder takes tokens one by one. -/
lemma encodeTokens_written (tokens : List Token) :
    encodeTokens true tokens = if ∀ token ∈ tokens, token.encodable true = true
      then some (tokens.map stripXMLNamespaceAttributes) else none := by
  induction tokens with
  | nil => rfl
  | cons token tokens ih =>
    have next : encodeTokens (true ∨ token ≠ .leaf (.text [])) tokens = encodeTokens true tokens :=
      by simp
    rw [encodeTokens, next, ih]
    by_cases taken : token.encodable true = true
    · by_cases later : ∀ token ∈ tokens, token.encodable true = true <;> simp [taken, later]
    · simp [taken]

/-- Tokens are encoded without loss exactly when the encoder takes them all and mistakes no
attribute. -/
lemma encodeTokens_whole_iff :
    encodeTokens true value = some (value.map Token.content) ↔
      ∀ token ∈ value, token.encodable true = true ∧ token.honest = true := by
  rw [encodeTokens_written]
  split_ifs with taken
  · rw [Option.some_inj, List.map_inj_left]
    exact forall₂_congr fun token member => by
      rw [strip_eq_content_iff, and_iff_right (taken token member)]
  · exact iff_of_false (by simp) fun both => taken fun token member => (both token member).1

/-! ## Balanced values -/

/-- Inside `depth` elements, no initial part closes more elements than are open, and all are closed
at the end. -/
def balanced : Nat → List Token → Bool
  | depth, [] => depth = 0
  | depth, .start _ _ :: rest => balanced (depth + 1) rest
  | 0, .stop _ :: _ => false
  | depth + 1, .stop _ :: rest => balanced depth rest
  | depth, .leaf _ :: rest => balanced depth rest

/-- An initial part that closes what was open leaves nothing to close. -/
lemma not_balanced_append_stop {front rest : List Token} (closed : balanced depth front = true) :
    balanced depth (front ++ .stop name :: rest) = false := by
  induction front generalizing depth with
  | nil =>
    obtain rfl : depth = 0 := of_decide_eq_true closed
    rfl
  | cons token front ih =>
    cases token with
    | start => exact ih closed
    | leaf => exact ih closed
    | stop =>
      cases depth with
      | zero => cases closed
      | succ depth => exact ih closed

/-- A balanced value is passed on whole. -/
lemma innerTokens_of_balanced (closed : balanced depth value = true) :
    innerTokens (depth + 1) (value ++ [.stop name]) = value := by
  induction value generalizing depth with
  | nil =>
    obtain rfl : depth = 0 := of_decide_eq_true closed
    rfl
  | cons token value ih =>
    cases token with
    | start => rw [List.cons_append, innerTokens, ih closed]
    | leaf => rw [List.cons_append, innerTokens, ih closed]
    | stop =>
      cases depth with
      | zero => cases closed
      | succ depth => rw [List.cons_append, innerTokens, ih closed]

/-- Where the wrapper is not closed early, what is accepted is balanced. -/
lemma balanced_of_wellNested
    (accepted : wellNested (elements ++ [wrapper]) (value ++ [.stop wrapper]) = true)
    (inside : ∀ front rest, value = front ++ .stop wrapper :: rest →
      balanced elements.length front = false) : balanced elements.length value = true := by
  induction value generalizing elements with
  | nil =>
    cases elements with
    | nil => rfl
    | cons name elements => simp [wellNested] at accepted
  | cons token value ih =>
    cases token with
    | start name attributes =>
      refine @ih (name :: elements) accepted fun front rest same => ?_
      exact inside (.start name attributes :: front) rest (by rw [same, List.cons_append])
    | leaf item =>
      exact ih accepted fun front rest same =>
        inside (.leaf item :: front) rest (by rw [same, List.cons_append])
    | stop name =>
      cases elements with
      | nil =>
        obtain ⟨rfl, -⟩ := of_decide_eq_true accepted
        exact absurd (inside [] value rfl) (by simp [balanced])
      | cons other elements =>
        obtain ⟨-, accepted⟩ := of_decide_eq_true accepted
        refine ih accepted fun front rest same => ?_
        exact inside (.stop name :: front) rest (by rw [same, List.cons_append])

/-- An accepted value is balanced, and PROPFIND serves all of it, exactly when it does not close the
wrapper after a balanced part of itself, the encoder takes its tokens and none of its attributes is
mistaken for a declaration. -/
theorem accepted_fragment_balanced_iff (value : List Token)
    (accepted : validateXMLFragment value = true) :
    (balanced 0 value = true ∧ copyInner (wrapped value) = some (value.map Token.content)) ↔
    (¬∃ front rest, value = front ++ .stop wrapper :: rest ∧ balanced 0 front = true) ∧
      ∀ token ∈ value, token.encodable true = true ∧ token.honest = true := by
  have copied (closed : balanced 0 value = true) :
      copyInner (wrapped value) = encodeTokens true value :=
    congrArg (encodeTokens true) (innerTokens_of_balanced closed)
  constructor
  · rintro ⟨closed, whole⟩
    refine ⟨?_, encodeTokens_whole_iff.mp ((copied closed).symm.trans whole)⟩
    rintro ⟨front, rest, rfl, early⟩
    rw [not_balanced_append_stop early] at closed
    cases closed
  · rintro ⟨inside, taken⟩
    have closed : balanced 0 value = true := @balanced_of_wellNested value [] accepted
      fun front rest same => Bool.eq_false_iff.mpr fun early => inside ⟨front, rest, same, early⟩
    exact ⟨closed, (copied closed).trans (encodeTokens_whole_iff.mpr taken)⟩

/-- `<q:a xmlns:q="v" q:x="1">t<b><!--c--></b></q:a><?d e?>`. -/
def nestedValue : List Token :=
  [.start ⟨['v'], ['a']⟩ [.declaration ['q'] ['v'], .plain ⟨['v'], ['x']⟩ ['1']],
    .leaf (.text ['t']), .start ⟨[], ['b']⟩ [], .leaf (.comment ['c']), .stop ⟨[], ['b']⟩,
    .stop ⟨['v'], ['a']⟩, .leaf (.procInst ['d'] ['e'])]

/-- Such a value is accepted, balanced and served whole. -/
theorem element_fragment_balanced : validateXMLFragment nestedValue = true ∧
    balanced 0 nestedValue = true ∧
    copyInner (wrapped nestedValue) = some (nestedValue.map Token.content) := by
  refine ⟨by decide, (accepted_fragment_balanced_iff _ (by decide)).mpr ⟨?_, ?_⟩⟩
  · rintro ⟨front, rest, same, -⟩
    have member : .stop wrapper ∈ front ++ .stop wrapper :: rest := by simp
    rw [← same] at member
    exact absurd member (by decide)
  · decide

/-- `</wrapper><b></b><wrapper>` is accepted, and PROPFIND serves nothing of it. -/
theorem reopened_wrapper_accepted :
    validateXMLFragment [.stop wrapper, .start ⟨[], ['b']⟩ [], .stop ⟨[], ['b']⟩,
      .start wrapper []] = true ∧
    balanced 0 [.stop wrapper, .start ⟨[], ['b']⟩ [], .stop ⟨[], ['b']⟩,
      .start wrapper []] = false ∧
    copyInner (wrapped [.stop wrapper, .start ⟨[], ['b']⟩ [], .stop ⟨[], ['b']⟩,
      .start wrapper []]) = some [] := by
  decide

/-! ## Namespaces -/

/-- The name of an element that is written without a prefix where `space` is the default namespace:
the decoder leaves an element `xmlns` in no namespace. -/
def translate (space localName : Text) : Name :=
  ⟨if localName = xmlnsPrefix then [] else space, localName⟩

/-- What is read back of tokens that the encoder has written.  An element in a namespace is written
with a declaration of it and any other element without, so that it falls into the namespace of the
elements around it.  Attributes keep their names, for which the encoder declares prefixes. -/
def readBack : List Text → List Token → List Token
  | _, [] => []
  | spaces, .start name attributes :: rest =>
    let declared := if name.space = [] then [] else [.declaration [] name.space]
    let space := if name.space = [] then spaces.headD [] else name.space
    .start (translate space name.localName) (declared ++ attributes) ::
      readBack (space :: spaces) rest
  | spaces, .stop name :: rest =>
    .stop (translate (spaces.headD []) name.localName) :: readBack spaces.tail rest
  | spaces, .leaf item :: rest => .leaf item :: readBack spaces rest

/-- `captureInnerXML` of the tokens inside a property element of PROPPATCH. -/
def captureInnerXML (value : List Token) : Option (List Token) := encodeTokens false value

/-- What PROPFIND writes for the stored value. -/
def encodeInnerXML (inner : List Token) : Option (List Token) :=
  copyInner (readBack [[]] (wrapped inner))

/-- The element of a property in a PROPFIND response. -/
def encodeDAVProperty (name : Name) (inner : List Token) : Option (List Token) :=
  (encodeInnerXML inner).map fun content => .start name [] :: (content ++ [.stop name])

/-- What a client reads of a property in a PROPFIND response, without the declarations. -/
def propertyRead (name : Name) (stored : List Token) : Option (List Token) :=
  (encodeDAVProperty name stored).map fun written =>
    (readBack [davNamespace] written).map Token.content

/-- A name that is read as it was written: it is in a namespace, unless it is `xmlns`. -/
def Name.legible (name : Name) : Bool := name.space = [] ↔ name.localName = xmlnsPrefix

/-- The element that the token starts has a legible name. -/
def Token.legible : Token → Bool
  | .start name _ => name.legible
  | _ => true

/-- A legible name is read as it was, whatever namespace it stands in. -/
lemma translate_of_legible (legible : name.legible = true) (outer : Text) :
    translate (if name.space = [] then outer else name.space) name.localName = name := by
  have iff := of_decide_eq_true legible
  by_cases none : name.space = []
  · rw [translate, if_pos (iff.mp none), ← none]
  · rw [if_neg none, translate, if_neg (mt iff.mpr none)]

/-- In a namespace only legible names are read. -/
lemma legible_translate {space : Text} (named : space ≠ []) (localName : Text) :
    (translate space localName).legible = true := by
  refine decide_eq_true ?_
  unfold translate
  split_ifs with xmlns
  · exact iff_of_true rfl xmlns
  · exact iff_of_false named xmlns

/-- Well nested tokens are balanced. -/
lemma balanced_of_nested (nested : wellNested elements value = true) :
    balanced elements.length value = true := by
  induction value generalizing elements with
  | nil => simpa [wellNested, balanced] using nested
  | cons token value ih =>
    cases token with
    | start => exact ih nested
    | leaf => exact ih nested
    | stop =>
      cases elements with
      | nil => cases nested
      | cons => exact ih (of_decide_eq_true nested).2

lemma nested_map_strip (elements : List Name) (value : List Token) :
    wellNested elements (value.map stripXMLNamespaceAttributes) = wellNested elements value := by
  induction value generalizing elements with
  | nil => rfl
  | cons token value ih =>
    cases token with
    | start => exact ih _
    | leaf => simpa [wellNested, stripXMLNamespaceAttributes] using ih elements
    | stop => cases elements <;> simp [wellNested, stripXMLNamespaceAttributes, ih]

lemma balanced_map_strip (depth : Nat) (value : List Token) :
    balanced depth (value.map stripXMLNamespaceAttributes) = balanced depth value := by
  induction value generalizing depth with
  | nil => rfl
  | cons token value ih =>
    cases token with
    | start => exact ih _
    | leaf => simpa [balanced, stripXMLNamespaceAttributes] using ih depth
    | stop => cases depth <;> simp [balanced, stripXMLNamespaceAttributes, ih]

lemma balanced_readBack (depth : Nat) (spaces : List Text) (value : List Token) :
    balanced depth (readBack spaces value) = balanced depth value := by
  induction value generalizing depth spaces with
  | nil => rfl
  | cons token value ih =>
    cases token with
    | start => exact ih _ _
    | leaf => simpa [balanced, readBack] using ih depth spaces
    | stop => cases depth <;> simp [balanced, readBack, ih]

/-- The encoder takes what was read back as it takes what was written. -/
lemma encodable_readBack (spaces : List Text) (value : List Token) :
    (∀ token ∈ readBack spaces value, token.encodable true = true) ↔
      ∀ token ∈ value, token.encodable true = true := by
  induction value generalizing spaces with
  | nil => rfl
  | cons token value ih =>
    cases token <;> rw [readBack, List.forall_mem_cons, List.forall_mem_cons, ih] <;> exact Iff.rfl

/-- The elements of a balanced value leave the namespaces around it as they were. -/
lemma readBack_append (closed : balanced depth value = true) {inner : List Text}
    (outer : List Text) (open' : inner.length = depth) (rest : List Token) :
    readBack (inner ++ outer) (value ++ rest) =
      readBack (inner ++ outer) value ++ readBack outer rest := by
  induction value generalizing depth inner with
  | nil =>
    obtain rfl : depth = 0 := of_decide_eq_true closed
    rw [List.eq_nil_of_length_eq_zero open']
    rfl
  | cons token value ih =>
    cases token with
    | start name =>
      simp only [List.cons_append, readBack]
      rw [← List.cons_append, ih closed (by simp [open'])]
    | leaf => simp only [List.cons_append, readBack, ih closed open']
    | stop =>
      cases inner with
      | nil =>
        subst open'
        cases closed
      | cons space inner =>
        subst open'
        simp only [List.cons_append, readBack, List.tail_cons, ih closed rfl]

/-- Inside a namespace every name that is read is legible. -/
lemma readBack_legible (closed : balanced depth value = true) {spaces : List Text}
    (named : ∀ space ∈ spaces, space ≠ []) (enough : depth < spaces.length)
    {attributes : List Attribute} (member : .start name attributes ∈ readBack spaces value) :
    name.legible = true := by
  obtain ⟨space, spaces, rfl⟩ := List.exists_cons_of_length_pos (Nat.zero_lt_of_lt enough)
  induction value generalizing depth space spaces with
  | nil => cases member
  | cons token value ih =>
    cases token with
    | leaf => exact ih closed space spaces named enough (by simpa [readBack] using member)
    | start other =>
      have here : (if other.space = [] then space else other.space) ≠ [] := by
        split_ifs with none
        · exact named space List.mem_cons_self
        · exact none
      rcases List.mem_cons.mp member with same | later
      · rw [(Token.start.inj same).1]
        exact legible_translate here _
      · exact ih closed _ _ (List.forall_mem_cons.mpr ⟨here, named⟩) (by simpa using enough) later
    | stop =>
      cases depth with
      | zero => cases closed
      | succ depth =>
        cases spaces with
        | nil => simp at enough
        | cons next spaces =>
          have outer : ∀ other ∈ next :: spaces, other ≠ [] :=
            fun _ inner => named _ (List.mem_cons_of_mem _ inner)
          exact ih closed next spaces outer (by simpa using enough)
            (by simpa [readBack] using member)

/-- An attribute that is read is a declaration of the encoder or was written. -/
lemma readBack_attribute {spaces : List Text} {attributes : List Attribute} {given : Attribute}
    (member : .start name attributes ∈ readBack spaces value) (listed : given ∈ attributes) :
    given.isDeclaration = true ∨
      ∃ element written, .start element written ∈ value ∧ given ∈ written := by
  induction value generalizing spaces with
  | nil => cases member
  | cons token value ih =>
    rcases token with ⟨other, written⟩ | other | item
    · rcases List.mem_cons.mp member with same | later
      · rw [(Token.start.inj same).2] at listed
        rcases List.mem_append.mp listed with declared | own
        · left
          split_ifs at declared
          · cases declared
          · rw [List.mem_singleton.mp declared]
            rfl
        · exact .inr ⟨other, written, List.mem_cons_self, own⟩
      · refine (ih later).imp_right fun ⟨element, written, inside, own⟩ => ?_
        exact ⟨element, written, List.mem_cons_of_mem _ inside, own⟩
    all_goals
      have later : .start name attributes ∈ readBack _ value :=
        (List.mem_cons.mp member).resolve_left fun same => by cases same
      refine (ih later).imp_right fun ⟨element, written, inside, own⟩ => ?_
      exact ⟨element, written, List.mem_cons_of_mem _ inside, own⟩

/-- A value with legible names is read back as it was written. -/
lemma readBack_of_legible {inner : List Text} (outer : List Text)
    (scopes : List.Forall₂ (fun (name : Name) space => translate space name.localName = name)
      elements inner)
    (nested : wellNested elements value = true)
    (legible : ∀ token ∈ value, token.legible = true) :
    (readBack (inner ++ outer) value).map Token.content = value.map Token.content := by
  induction value generalizing elements inner with
  | nil => rfl
  | cons token value ih =>
    obtain ⟨here, later⟩ := List.forall_mem_cons.mp legible
    cases token with
    | leaf => rw [readBack, List.map_cons, List.map_cons, ih scopes nested later]
    | start name attributes =>
      have read := translate_of_legible here ((inner ++ outer).headD [])
      have tail := ih (.cons read scopes) nested later
      rw [List.cons_append] at tail
      simp only [readBack, List.map_cons, tail, read]
      refine congrArg (· :: _) (congrArg (Token.start name) ?_)
      split_ifs <;> simp [Attribute.isDeclaration]
    | stop name =>
      cases scopes with
      | nil => cases nested
      | cons read scopes =>
        obtain ⟨rfl, within⟩ := of_decide_eq_true nested
        have tail := ih scopes within later
        simp only [readBack, List.cons_append, List.headD_cons, List.tail_cons, read, List.map_cons,
          tail]

/-! ## The round trip -/

/-- PROPFIND encodes what is read of a balanced value without its wrapper. -/
lemma encodeInnerXML_eq {stored : List Token} (closed : balanced 0 stored = true) :
    encodeInnerXML stored = encodeTokens true (readBack [[], []] stored) := by
  have inner := @readBack_append 0 stored closed [] [[], []] rfl [.stop wrapper]
  rw [List.nil_append] at inner
  have whole : readBack [[]] (wrapped stored) =
      .start wrapper [] :: (readBack [[], []] stored ++ [.stop wrapper]) := by
    rw [wrapped, readBack]
    exact congrArg (List.cons _) inner
  rw [encodeInnerXML, copyInner, whole]
  exact congrArg (encodeTokens true)
    (innerTokens_of_balanced ((balanced_readBack 0 _ _).trans closed))

/-- The default namespace inside the element of a property. -/
def servedSpace (name : Name) : Text := if name.space = [] then davNamespace else name.space

/-- What is read of the element of a property around a balanced content. -/
lemma readBack_property (name : Name) {content : List Token} (closed : balanced 0 content = true) :
    (readBack [davNamespace] (.start name [] :: (content ++ [.stop name]))).map Token.content =
      .start (translate (servedSpace name) name.localName) [] ::
        ((readBack [servedSpace name, davNamespace] content).map Token.content ++
          [.stop (translate (servedSpace name) name.localName)]) := by
  have inner := @readBack_append 0 _ closed [] [servedSpace name, davNamespace] rfl [.stop name]
  rw [List.nil_append] at inner
  rw [readBack, List.append_nil, List.map_cons]
  refine congrArg₂ List.cons ?_
    ((congrArg (List.map Token.content) inner).trans List.map_append)
  refine congrArg (Token.start _) ?_
  split_ifs <;> simp [Attribute.isDeclaration]

/-- Stripping removes the declarations as well. -/
lemma strip_content (token : Token) :
    stripXMLNamespaceAttributes token.content = stripXMLNamespaceAttributes token := by
  cases token with
  | stop => rfl
  | leaf => rfl
  | start name attributes =>
    simp only [Token.content, stripXMLNamespaceAttributes, List.filter_filter]
    refine congrArg (Token.start name) (List.filter_congr fun given _ => ?_)
    have declares := @declares_of_isDeclaration given
    cases declared : given.isDeclaration with
    | false => simp
    | true => simp [declares declared]

@[simp]
lemma strip_strip (token : Token) : stripXMLNamespaceAttributes
    (stripXMLNamespaceAttributes token) = stripXMLNamespaceAttributes token := by
  cases token <;> simp [stripXMLNamespaceAttributes]

@[simp]
lemma content_content (token : Token) : token.content.content = token.content := by
  cases token <;> simp [Token.content]

/-- What is read of a stripped value comes from it and has legible names. -/
lemma conditions_of_read {space : Text} (closed : balanced 0 value = true) (named : space ≠ [])
    (same : (readBack [space, davNamespace] ((readBack [[], []]
      (value.map stripXMLNamespaceAttributes)).map stripXMLNamespaceAttributes)).map Token.content =
        value.map Token.content) :
    ∀ token ∈ value, token.honest = true ∧ token.legible = true := by
  intro token member
  rcases token with ⟨element, attributes⟩ | element | item
  · have listed : Token.content (.start element attributes) ∈ value.map Token.content :=
      List.mem_map_of_mem member
    rw [← same] at listed
    obtain ⟨read, inside, reads⟩ := List.mem_map.mp listed
    rcases read with ⟨other, found⟩ | other | item
    · obtain ⟨rfl, kept⟩ := Token.start.inj reads
      have served : balanced 0 ((readBack [[], []] (value.map
          stripXMLNamespaceAttributes)).map stripXMLNamespaceAttributes) = true := by
        rw [balanced_map_strip, balanced_readBack, balanced_map_strip, closed]
      refine ⟨List.all_eq_true.mpr fun given own => decide_eq_true fun declares => ?_,
        readBack_legible served (by simp [named, davNamespace]) (by simp) inside⟩
      by_contra plain
      have read : given ∈ found.filter fun given => ¬given.isDeclaration := by
        rw [kept]
        exact List.mem_filter.mpr ⟨own, decide_eq_true plain⟩
      rcases readBack_attribute inside (List.mem_filter.mp read).1 with declared | written
      · exact plain declared
      -- PROPFIND has stripped what it read of the stored value
      · obtain ⟨before, stripped, wrote, inStripped⟩ := written
        obtain ⟨token, -, strips⟩ := List.mem_map.mp wrote
        rcases token with ⟨name, attributes⟩ | name | item
        · rw [← (Token.start.inj strips).2] at inStripped
          exact of_decide_eq_true (List.mem_filter.mp inStripped).2 declares
        · cases strips
        · cases strips
    · cases reads
    · cases reads
  · exact ⟨rfl, rfl⟩
  · exact ⟨rfl, rfl⟩

/-- A dead property with a value of nested elements that PROPPATCH stores is read in a PROPFIND
response as it was exactly when its name and those of the elements of the value are legible, no
attribute is mistaken for a declaration and the encoder takes every token. -/
theorem property_round_trip_iff (name : Name) {value stored : List Token}
    (nested : wellNested [] value = true) (accepted : captureInnerXML value = some stored) :
    propertyRead name stored =
      some (.start name [] :: (value.map Token.content ++ [.stop name])) ↔
    name.legible = true ∧ ∀ token ∈ value,
      token.encodable true = true ∧ token.honest = true ∧ token.legible = true := by
  obtain rfl := eq_of_encodeTokens accepted
  have closed : balanced 0 value = true := balanced_of_nested nested
  have closed' := (balanced_map_strip 0 value).trans closed
  have served : servedSpace name ≠ [] := by
    rw [servedSpace]
    split_ifs with none
    · decide
    · exact none
  rw [propertyRead, encodeDAVProperty, encodeInnerXML_eq closed', encodeTokens_written,
    Option.map_map]
  have same : (∀ token ∈ readBack [[], []] (value.map stripXMLNamespaceAttributes),
      token.encodable true = true) ↔ ∀ token ∈ value, token.encodable true = true := by
    rw [encodable_readBack, List.forall_mem_map]
    exact forall₂_congr fun token _ => by cases token <;> rfl
  by_cases taken : ∀ token ∈ value, token.encodable true = true
  swap
  · rw [if_neg (mt same.mp taken)]
    exact iff_of_false (by simp) fun all => taken fun token member => (all.2 token member).1
  have readClosed : balanced 0 ((readBack [[], []] (value.map
      stripXMLNamespaceAttributes)).map stripXMLNamespaceAttributes) = true := by
    rw [balanced_map_strip, balanced_readBack, closed']
  rw [if_pos (same.mpr taken), Option.map_some, Option.some_inj, Function.comp_apply,
    readBack_property name readClosed]
  constructor
  · intro same
    obtain ⟨head, tail⟩ := List.cons.inj same
    have read := (Token.start.inj head).1
    rw [read] at tail
    have content := conditions_of_read closed served (List.append_cancel_right tail)
    exact ⟨read ▸ legible_translate served _,
      fun token member => ⟨taken token member, content token member⟩⟩
  · rintro ⟨legible, all⟩
    have honest : value.map stripXMLNamespaceAttributes = value.map Token.content :=
      List.map_inj_left.mpr fun token member => strip_eq_content_iff.mpr (all token member).2.1
    have nested' := (nested_map_strip [] value).trans nested
    have legible' : ∀ token ∈ value.map stripXMLNamespaceAttributes, token.legible = true := by
      rw [List.forall_mem_map]
      intro token member
      have := (all token member).2.2
      cases token <;> exact this
    have once := fun outer => readBack_of_legible outer List.Forall₂.nil nested' legible'
    have first : (readBack [[], []] (value.map stripXMLNamespaceAttributes)).map
        stripXMLNamespaceAttributes = value.map stripXMLNamespaceAttributes := by
      have strips := congrArg (List.map stripXMLNamespaceAttributes) (once [[], []])
      simpa [Function.comp_def, strip_content] using strips
    have second := once [servedSpace name, davNamespace]
    rw [List.nil_append, honest] at second
    rw [first, honest, second]
    simp [servedSpace, translate_of_legible legible]

/-- `<q:a xmlns:q="v" q:x="1" y="2">t<q:b>s</q:b></q:a>`. -/
def servedValue : List Token :=
  [.start ⟨['v'], ['a']⟩ [.declaration ['q'] ['v'], .plain ⟨['v'], ['x']⟩ ['1'],
      .plain ⟨[], ['y']⟩ ['2']],
    .leaf (.text ['t']), .start ⟨['v'], ['b']⟩ [], .leaf (.text ['s']), .stop ⟨['v'], ['b']⟩,
    .stop ⟨['v'], ['a']⟩]

/-- A property and a value whose names are in namespaces. -/
theorem named_property_served :
    (captureInnerXML servedValue).bind (propertyRead ⟨['u'], ['p']⟩) =
      some (.start ⟨['u'], ['p']⟩ [] :: (servedValue.map Token.content ++
        [.stop ⟨['u'], ['p']⟩])) := by
  obtain ⟨stored, accepted⟩ := Option.isSome_iff_exists.mp
    (show (captureInnerXML servedValue).isSome = true by decide)
  rw [accepted]
  exact (property_round_trip_iff ⟨['u'], ['p']⟩ (by decide) accepted).mpr (by decide)

/-- An element in no namespace comes back in that of its property, a property in no namespace
comes back as a property of WebDAV, and an attribute in a namespace `xmlns` is lost. -/
theorem unnamed_element_renamed :
    (captureInnerXML [.start ⟨[], ['a']⟩ [], .stop ⟨[], ['a']⟩]).bind
      (propertyRead ⟨['u'], ['p']⟩) =
      some [.start ⟨['u'], ['p']⟩ [], .start ⟨['u'], ['a']⟩ [], .stop ⟨['u'], ['a']⟩,
        .stop ⟨['u'], ['p']⟩] ∧
    (captureInnerXML []).bind (propertyRead ⟨[], ['p']⟩) =
      some [.start ⟨davNamespace, ['p']⟩ [], .stop ⟨davNamespace, ['p']⟩] ∧
    (captureInnerXML [.start ⟨['v'], ['a']⟩ [.declaration ['r'] xmlnsPrefix,
      .plain ⟨xmlnsPrefix, ['x']⟩ ['1']], .stop ⟨['v'], ['a']⟩]).bind
      (propertyRead ⟨['u'], ['p']⟩) =
      some [.start ⟨['u'], ['p']⟩ [], .start ⟨['v'], ['a']⟩ [], .stop ⟨['v'], ['a']⟩,
        .stop ⟨['u'], ['p']⟩] := by
  decide

end TgFile.Xml
