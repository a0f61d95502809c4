import TgFile.Go.Path
import TgFile.Go.Reader

/-! # Strict JSON

`decodeStrictJSON` of manifests and of the admin API walks over a document to refuse repeated
member names, and then decodes it into a struct without unknown fields.  The walk compares names as
they are written, `encoding/json` finds the field of a member up to case. -/

namespace TgFile.StrictJson

open Go

/-- A JSON document, with scalars as they are written. -/
inductive Json
  | scalar (token : Text)
  | array (items : List Json)
  | object (members : List (Text × Json))

/-! ## The walk -/

mutual

/-- The walk finds no name twice in an object. -/
def consumeJSONValue : Json → Bool
  | .scalar _ => true
  | .array items => consumeJSONArray items
  | .object members => consumeJSONObject [] members

/-- The loop over the items of an array. -/
def consumeJSONArray : List Json → Bool
  | [] => true
  | item :: items => consumeJSONValue item && consumeJSONArray items

/-- The loop of `consumeJSONObject` after the names `seen`. -/
def consumeJSONObject (seen : List Text) : List (Text × Json) → Bool
  | [] => true
  | (name, value) :: members =>
    (name ∉ seen) && consumeJSONValue value && consumeJSONObject (name :: seen) members

end

/-! ## The decoder -/

/-- A Go type that a document is decoded into, with the JSON names of the fields of a struct. -/
inductive Shape
  | scalar (fits : Text → Bool)
  | array (item : Shape)
  | map (value : Shape)
  | struct (fields : List (Text × Shape))

section Decoder

-- the case folding of `encoding/json`
variable (fold : Text → Text)

/-- The field a member is decoded into: the one of its name, or else one of its name up to case. -/
def fieldOf (fields : List (Text × Shape)) (name : Text) : Option (Text × Shape) :=
  (fields.find? fun field => field.1 = name).or
    (fields.find? fun field => fold field.1 = fold name)

mutual

/-- `Decode` into a target with `DisallowUnknownFields` succeeds. -/
def decodes : Shape → Json → Bool
  | .scalar fits, .scalar token => fits token || token = "null".toList
  | _, .scalar token => token = "null".toList
  | .array item, .array items => decodesItems item items
  | .map value, .object members => decodesMembers (fun _ => some value) members
  | .struct fields, .object members =>
    decodesMembers (fun name => (fieldOf fold fields name).map Prod.snd) members
  | _, _ => false

/-- The loop over the items of a slice. -/
def decodesItems (shape : Shape) : List Json → Bool
  | [] => true
  | item :: items => decodes shape item && decodesItems shape items

/-- A member for which there is no type is an unknown field. -/
def decodesMembers (shapeOf : Text → Option Shape) : List (Text × Json) → Bool
  | [] => true
  | (name, value) :: members =>
    (match shapeOf name with
      | none => false
      | some shape => decodes shape value) && decodesMembers shapeOf members

end

/-- `decodeStrictJSON` of `backupfmt`, on the document that the bytes are. -/
def decodeStrictJSON (shape : Shape) (document : Json) : Bool :=
  consumeJSONValue document && decodes fold shape document

/-- `decodeStrictJSON` of the admin API, with the document it accepts.  The body is read to one byte
past the limit; `parse` finds the one document of bytes that are UTF-8. -/
def decodeStrictJSONWithin (parse : List Byte → Option Json) (limit : Nat) (shape : Shape)
    (body : List Byte) : Option Json :=
  let raw := body.take (limit + 1)
  if limit < raw.length then none else (parse raw).filter (decodeStrictJSON fold shape)

/-- One of the two decoders accepts the document. -/
def Accepts (shape : Shape) (document : Json) : Prop :=
  decodeStrictJSON fold shape document = true ∨
    ∃ parse limit body, decodeStrictJSONWithin fold parse limit shape body = some document

/-- The decoder comes to an object with a struct of these fields as its target. -/
inductive Reaches : Shape → Json → List (Text × Shape) → List (Text × Json) → Prop
  | here (fields members) : Reaches (.struct fields) (.object members) fields members
  | item {shape value items fields members} : value ∈ items → Reaches shape value fields members →
      Reaches (.array shape) (.array items) fields members
  | entry {shape name value entries fields members} : (name, value) ∈ entries →
      Reaches shape value fields members → Reaches (.map shape) (.object entries) fields members
  | field {outer around name field shape value fields members} : (name, value) ∈ around →
      fieldOf fold outer name = some (field, shape) → Reaches shape value fields members →
      Reaches (.struct outer) (.object around) fields members

/-- The members that are decoded into a field. -/
def boundTo (fields : List (Text × Shape)) (members : List (Text × Json)) (field : Text) :
    List (Text × Json) :=
  members.filter fun member => (fieldOf fold fields member.1).map Prod.fst = some field

/-- Each field is bound from at most one member, which has exactly its name. -/
def BoundExactly (fields : List (Text × Shape)) (members : List (Text × Json)) : Prop :=
  ∀ field, (boundTo fold fields members field).length ≤ 1 ∧
    ∀ member ∈ boundTo fold fields members field, member.1 = field

end Decoder

/-! ## What is accepted -/

variable {fold : Text → Text} {shape : Shape} {document : Json} {fields : List (Text × Shape)}
  {members : List (Text × Json)}

/-- What the admin API accepts is the document of a whole body within the limit. -/
lemma decodeStrictJSONWithin_some {parse : List Byte → Option Json} {limit : Nat}
    {body : List Byte}
    (accepted : decodeStrictJSONWithin fold parse limit shape body = some document) :
    body.length ≤ limit ∧ parse body = some document ∧
      decodeStrictJSON fold shape document = true := by
  simp only [decodeStrictJSONWithin] at accepted
  split at accepted
  · cases accepted
  · rename_i short
    have whole : body.length ≤ limit := by
      rw [List.length_take] at short
      omega
    rw [List.take_of_length_le (by omega), Option.filter_eq_some_iff] at accepted
    exact ⟨whole, accepted⟩

lemma Accepts.decoded (accepts : Accepts fold shape document) :
    decodeStrictJSON fold shape document = true := by
  rcases accepts with accepted | ⟨_, _, _, accepted⟩
  · exact accepted
  · exact (decodeStrictJSONWithin_some accepted).2.2

lemma consumeJSONArray_all {items : List Json} (passed : consumeJSONArray items = true) :
    ∀ item ∈ items, consumeJSONValue item = true := by
  induction items with
  | nil => simp
  | cons item items ih =>
    rw [consumeJSONArray, Bool.and_eq_true] at passed
    exact List.forall_mem_cons.mpr ⟨passed.1, ih passed.2⟩

lemma consumeJSONObject_all {seen : List Text} (passed : consumeJSONObject seen members = true) :
    (∀ member ∈ members, member.1 ∉ seen ∧ consumeJSONValue member.2 = true) ∧
      (members.map Prod.fst).Nodup := by
  induction members generalizing seen with
  | nil => simp
  | cons member members ih =>
    obtain ⟨name, value⟩ := member
    simp only [consumeJSONObject, Bool.and_eq_true, decide_eq_true_eq] at passed
    obtain ⟨⟨fresh, here⟩, later⟩ := passed
    obtain ⟨rest, distinct⟩ := ih later
    refine ⟨List.forall_mem_cons.mpr ⟨⟨fresh, here⟩, fun other member => ?_⟩, ?_⟩
    · obtain ⟨new, walked⟩ := rest other member
      exact ⟨fun old => new (List.mem_cons_of_mem _ old), walked⟩
    · refine List.nodup_cons.mpr ⟨fun repeated => ?_, distinct⟩
      obtain ⟨other, member, same⟩ := List.mem_map.mp repeated
      exact (rest other member).1 (same ▸ List.mem_cons_self)

lemma decodesItems_all {items : List Json} (decoded : decodesItems fold shape items = true) :
    ∀ item ∈ items, decodes fold shape item = true := by
  induction items with
  | nil => simp
  | cons item items ih =>
    rw [decodesItems, Bool.and_eq_true] at decoded
    exact List.forall_mem_cons.mpr ⟨decoded.1, ih decoded.2⟩

lemma decodesMembers_all {shapeOf : Text → Option Shape}
    (decoded : decodesMembers fold shapeOf members = true) : ∀ member ∈ members,
      ∃ shape, shapeOf member.1 = some shape ∧ decodes fold shape member.2 = true := by
  induction members with
  | nil => simp
  | cons member members ih =>
    obtain ⟨name, value⟩ := member
    rw [decodesMembers, Bool.and_eq_true] at decoded
    refine List.forall_mem_cons.mpr ⟨?_, ih decoded.2⟩
    cases target : shapeOf name with
    | none => simp [target] at decoded
    | some shape => exact ⟨shape, rfl, by simpa [target] using decoded.1⟩

/-- The names of an object in an accepted document are distinct and have fields. -/
lemma Reaches.names (reaches : Reaches fold shape document fields members)
    (passed : consumeJSONValue document = true) (decoded : decodes fold shape document = true) :
    (members.map Prod.fst).Nodup ∧
      ∀ member ∈ members, ∃ field, fieldOf fold fields member.1 = some field := by
  induction reaches with
  | here fields members =>
    refine ⟨(consumeJSONObject_all passed).2, fun member present => ?_⟩
    obtain ⟨_, found, -⟩ := decodesMembers_all decoded member present
    obtain ⟨field, found, -⟩ := Option.map_eq_some_iff.mp found
    exact ⟨field, found⟩
  | item present _ ih =>
    exact ih (consumeJSONArray_all passed _ present) (decodesItems_all decoded _ present)
  | entry present _ ih =>
    obtain ⟨_, found, inner⟩ := decodesMembers_all decoded _ present
    obtain rfl := Option.some.inj found
    exact ih ((consumeJSONObject_all passed).1 _ present).2 inner
  | field present named _ ih =>
    obtain ⟨_, found, inner⟩ := decodesMembers_all decoded _ present
    rw [named] at found
    obtain rfl := Option.some.inj found
    exact ih ((consumeJSONObject_all passed).1 _ present).2 inner

/-! ## Exact names -/

lemma mem_of_fieldOf {name : Text} {field : Text × Shape}
    (found : fieldOf fold fields name = some field) : field ∈ fields := by
  rcases Option.or_eq_some_iff.mp found with exactly | ⟨-, folded⟩
  · exact List.mem_of_find?_eq_some exactly
  · exact List.mem_of_find?_eq_some folded

lemma fieldOf_exact {name : Text} {field : Text × Shape} (known : name ∈ fields.map Prod.fst)
    (found : fieldOf fold fields name = some field) : field.1 = name := by
  obtain ⟨own, present, named⟩ := List.mem_map.mp known
  cases first : fields.find? fun field => field.1 = name with
  | none => exact absurd named (by simpa using List.find?_eq_none.mp first own present)
  | some own =>
    rw [fieldOf, first] at found
    obtain rfl := Option.some.inj found
    simpa using List.find?_some first

lemma boundExactly_iff (distinct : (members.map Prod.fst).Nodup)
    (targets : ∀ member ∈ members, ∃ field, fieldOf fold fields member.1 = some field) :
    BoundExactly fold fields members ↔ ∀ member ∈ members, member.1 ∈ fields.map Prod.fst := by
  constructor
  · intro bound member present
    obtain ⟨field, found⟩ := targets member present
    have same := (bound field.1).2 member (List.mem_filter.mpr ⟨present, by simp [found]⟩)
    exact same ▸ List.mem_map_of_mem (mem_of_fieldOf found)
  · intro known field
    have named : ∀ member ∈ boundTo fold fields members field, member.1 = field := by
      intro member bound
      obtain ⟨present, target⟩ := List.mem_filter.mp bound
      obtain ⟨found, same, rfl⟩ := Option.map_eq_some_iff.mp (of_decide_eq_true target)
      exact (fieldOf_exact (known member present) same).symm
    refine ⟨?_, named⟩
    have apart : ((boundTo fold fields members field).map Prod.fst).Nodup :=
      distinct.sublist (List.filter_sublist.map _)
    rw [List.eq_replicate_of_mem (a := field)
      (l := (boundTo fold fields members field).map Prod.fst)
      (by simpa using fun a b member => named (a, b) member)] at apart
    simpa using List.nodup_replicate.mp apart

/-- An accepted document binds every field from at most one member of exactly its name if and only
if each member of an object that is decoded into a struct has exactly the name of a field. -/
theorem strict_json_binds_exactly_iff (fold : Text → Text) (shape : Shape) (document : Json)
    (accepted : Accepts fold shape document) :
    (∀ fields members, Reaches fold shape document fields members →
      BoundExactly fold fields members) ↔
    ∀ fields members, Reaches fold shape document fields members →
      ∀ member ∈ members, member.1 ∈ fields.map Prod.fst := by
  obtain ⟨passed, decoded⟩ := Bool.and_eq_true_iff.mp accepted.decoded
  refine forall_congr' fun fields => forall_congr' fun members => forall_congr' fun reaches => ?_
  obtain ⟨distinct, targets⟩ := reaches.names passed decoded
  exact boundExactly_iff distinct targets

/-- A target with the one field `a`. -/
def oneField : Shape := .struct [(['a'], .scalar fun _ => true)]

/-- A target with a field `a` and a list `b` of structs with `c` and `d`. -/
def nestedFields : Shape :=
  .struct [(['a'], .scalar fun _ => true),
    (['b'], .array (.struct [(['c'], .scalar fun _ => true), (['d'], .scalar fun _ => true)]))]

/-- A document with a list of objects. -/
def nestedDocument : Json :=
  .object [(['a'], .scalar ['1']),
    (['b'], .array [.object [(['c'], .scalar ['2']), (['d'], .scalar ['3'])]])]

/-- The bytes of the document. -/
def nestedBody : List Byte :=
  "\x7b\"a\":1,\"b\":[\x7b\"c\":2,\"d\":3\x7d]\x7d".toList.map fun c => .ofNat c.toNat

/-- The bytes above are the document. -/
def parseNested (raw : List Byte) : Option Json :=
  if raw = nestedBody then some nestedDocument else none

/-- Both objects of the document bind their fields exactly. -/
theorem nested_members_bound :
    decodeStrictJSONWithin (List.map Char.toLower) parseNested 64 nestedFields nestedBody =
      some nestedDocument ∧
    ∀ fields members,
      Reaches (List.map Char.toLower) nestedFields nestedDocument fields members →
      BoundExactly (List.map Char.toLower) fields members := by
  have accepted : decodeStrictJSONWithin (List.map Char.toLower) parseNested 64 nestedFields
      nestedBody = some nestedDocument := rfl
  refine ⟨accepted, (strict_json_binds_exactly_iff _ _ _ (.inr ⟨_, _, _, accepted⟩)).mpr ?_⟩
  intro fields members reaches
  cases reaches with
  | here => decide
  | field present found inner =>
    rcases List.mem_pair.mp present with same | same
    · obtain ⟨-, rfl⟩ := Prod.mk.inj same
      cases inner
    · obtain ⟨rfl, rfl⟩ := Prod.mk.inj same
      obtain ⟨-, rfl⟩ := Prod.mk.inj (Option.some.inj found)
      cases inner with
      | item member inner =>
        obtain rfl := List.mem_singleton.mp member
        cases inner with
        | here => decide
        | field present _ inner =>
          rcases List.mem_pair.mp present with same | same
          all_goals
            obtain ⟨-, rfl⟩ := Prod.mk.inj same
            cases inner

/-- `a` and `A` are different names for the walk and the same field for the decoder. -/
theorem case_twins_accepted :
    decodeStrictJSON (List.map Char.toLower) oneField
      (.object [(['a'], .scalar ['1']), (['A'], .scalar ['2'])]) = true ∧
    (boundTo (List.map Char.toLower) [(['a'], .scalar fun _ => true)]
      [(['a'], .scalar ['1']), (['A'], .scalar ['2'])] ['a']).length = 2 := by
  decide

end TgFile.StrictJson
