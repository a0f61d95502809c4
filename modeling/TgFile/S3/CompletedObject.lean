import TgFile.S3.CompositeFile
import TgFile.S3.Digest

/-! # What a completion publishes

The parts of an upload are Files that hold their bytes, with the MD5 and the checksum of these
bytes. The object that a completion publishes has the bytes of the selected parts one after another,
the ETag over their MD5s and the checksum over their checksums. -/

namespace TgFile.Store

open Go Result S3

variable {β : Type} {io : BlockIO β} {content : β → Text → Option (List Byte)} {st : Storage β}
  {block : Nat} {hashes : Hashes} {base env : Env} {now : Int} {s s' : Store}
  {request : CompleteMultipartRequest} {upload : MultipartUpload} {answer : CompleteMultipartResult}
  {algorithm : ChecksumAlgorithm} {value fingerprint : Text}
  {spec : Option (ChecksumAlgorithm × ChecksumType)} {records : List (MultipartPart × StoredFile)}
  {bytes : Nat → List Byte}

/-! ## Request checks -/

lemma validateCompleteParts_increasing {previous : Nat} {parts : List CompleteMultipartPart}
    (valid : validateCompleteParts previous parts = .ok ()) :
    (∀ part ∈ parts, previous < part.partNumber) ∧
      parts.Pairwise fun a b => a.partNumber < b.partNumber := by
  induction parts generalizing previous with
  | nil => exact ⟨nofun, .nil⟩
  | cons part parts ih =>
    simp only [validateCompleteParts, bind_ok, require_ok] at valid
    obtain ⟨_, above, _, -, rest⟩ := valid
    obtain ⟨later, increasing⟩ := ih rest
    refine ⟨List.forall_mem_cons.mpr ⟨above, fun other member => ?_⟩,
      List.pairwise_cons.mpr ⟨later, increasing⟩⟩
    exact Nat.lt_trans above (later other member)

/-- A composite checksum takes parts with consecutive numbers. -/
lemma validateCompletePartChecksums_numbers {expected : Nat} {parts : List CompleteMultipartPart}
    (valid : validateCompletePartChecksums env algorithm .composite expected parts = .ok ()) :
    parts.map CompleteMultipartPart.partNumber = List.range' expected parts.length := by
  induction parts generalizing expected with
  | nil => rfl
  | cons part parts ih =>
    simp only [validateCompletePartChecksums, bind_ok, require_ok] at valid
    obtain ⟨_, -, _, numbered, _, -, _, -, rest⟩ := valid
    rw [List.map_cons, ih rest, List.length_cons, List.range'_succ,
      numbered.resolve_left (fun other => other rfl)]

lemma validateCompleteChecksumRequest_legacy (spec : multipartChecksumSpec upload = .ok none)
    (valid : validateCompleteChecksumRequest env upload request = .ok ()) :
    request.finalChecksum = [] ∧ ∀ part ∈ request.parts, part.checksumValue = [] := by
  simp only [validateCompleteChecksumRequest, bind_ok] at valid
  obtain ⟨found, parsed, rest⟩ := valid
  obtain rfl := Except.ok.inj (parsed.symm.trans spec)
  obtain ⟨-, final, -, -, parts⟩ := require_ok.mp rest
  exact ⟨final, fun part member => (parts part member).2⟩

lemma validateCompleteChecksumRequest_numbers
    (spec : multipartChecksumSpec upload = .ok (some (algorithm, .composite)))
    (valid : validateCompleteChecksumRequest env upload request = .ok ()) :
    request.parts.map CompleteMultipartPart.partNumber = List.range' 1 request.parts.length := by
  simp only [validateCompleteChecksumRequest, bind_ok] at valid
  obtain ⟨found, parsed, rest⟩ := valid
  obtain rfl := Except.ok.inj (parsed.symm.trans spec)
  obtain ⟨_, -, numbered⟩ := bind_ok.mp rest
  exact validateCompletePartChecksums_numbers numbered

/-! ## Checksums of the object -/

/-- The final checksum that a request may name for an object, and the value that is stored, from the
bytes of its parts. -/
def objectChecksum (hashes : Hashes) :
    Option (ChecksumAlgorithm × ChecksumType) → List (List Byte) → Option (Text × Text)
  | none, _ => some ([], [])
  | some (algorithm, .fullObject), parts =>
    (fullObject algorithm (parts.map fun bytes =>
      (hashes.sumBase64 algorithm bytes, (bytes.length : Int)))).map fun value => (value, value)
  | some (algorithm, .composite), parts =>
    hashes.composite algorithm (parts.map (hashes.sumBase64 algorithm))

/-- The request value of a persisted composite checksum. -/
lemma parseCompositeStored_suffixed {count : Nat} {raw : List Byte} (nonempty : value ≠ [])
    (decoded : decode algorithm value = some raw) (positive : 0 < count) :
    parseCompositeStored algorithm (value ++ '-' :: decimal count) count = some value := by
  have suffix : ((value ++ '-' :: decimal count).reverse.takeWhile (· ≠ '-')).reverse =
      decimal count := by
    rw [List.reverse_append, List.reverse_cons, List.append_assoc, List.takeWhile_append_of_pos]
    · simp
    · intro c member
      refine decide_eq_true ?_
      rintro rfl
      exact notMem_decimal rfl (List.mem_reverse.mp member)
  have front : (value ++ '-' :: decimal count).take
      ((value ++ '-' :: decimal count).length - (decimal count).length - 1) = value := by
    rw [List.length_append, List.length_cons]
    exact List.take_left' (by omega)
  have some : decimal count ≠ [] := Nat.toDigits_ne_nil
  simp only [parseCompositeStored, suffix, front]
  rw [if_neg (by simp [nonempty, some]), atoi_decimal]
  simp only [Option.bind_eq_bind, Option.bind_some]
  rw [if_neg (by omega), decoded]
  rfl

/-! ## The parts of an upload -/

/-- A part carries the digests of its bytes. -/
structure PartDigests (hashes : Hashes) (algorithm : Option ChecksumAlgorithm)
    (part : MultipartPart)
    (bytes : List Byte) : Prop where
  etag : part.etag = hashes.md5Hex bytes
  checksum : ∀ a ∈ algorithm, part.checksumValue = hashes.sumBase64 a bytes

/-- The parts of an upload that were not discarded carry the digests of their bytes, and the Files
of those that can be selected hold the bytes. -/
structure PartsStored (hashes : Hashes) (io : BlockIO β)
    (content : β → Text → Option (List Byte)) (st : Storage β) (block : Nat)
    (upload : MultipartUpload) (bytes : Nat → List Byte) : Prop where
  digests : ∀ part ∈ st.store.uploadParts, part.uploadID = upload.uploadID →
    part.state ≠ .discarded →
    PartDigests hashes upload.checksumAlgorithm part (bytes part.partNumber)
  stores : ∀ part ∈ st.store.uploadParts, part.uploadID = upload.uploadID → part.state = .active →
    st.Stores io content part.fileID block (bytes part.partNumber) ∧
      part.partSize = (bytes part.partNumber).length

/-- The bytes of the requested parts, in the order of the request. -/
def requestedBytes (request : CompleteMultipartRequest) (bytes : Nat → List Byte) :
    List (List Byte) :=
  request.parts.map fun part => bytes part.partNumber

/-- The object of a completion, from the bytes of its parts. -/
structure PublishesParts (env : Env) (hashes : Hashes) (now : Int) (s' : Store)
    (upload : MultipartUpload)
    (request : CompleteMultipartRequest) (answer : CompleteMultipartResult)
    (parts : List (List Byte)) : Prop where
  size : answer.size = parts.flatten.length
  object : Shows env s' (objectPath request.bucket request.key) answer.fileID answer.size
    { multipartObjectMetadata upload answer.etag answer.checksumValue with
      ctime := now, mtime := now }
  etag : answer.etag =
    '"' :: hashes.md5Hex (parts.flatMap hashes.md5) ++ '-' :: decimal parts.length ++ ['"']
  spec : multipartChecksumSpec upload = .ok answer.checksum
  checksum : ∃ requestValue,
    objectChecksum hashes answer.checksum parts = some (requestValue, answer.checksumValue) ∧
      (request.finalChecksum = [] ∨ request.finalChecksum = requestValue)
  numbers : ∀ algorithm, answer.checksum = some (algorithm, .composite) →
    request.parts.map CompleteMultipartPart.partNumber = List.range' 1 request.parts.length

/-- The digests that a request names for its parts are those of the bytes. -/
structure NamesDigests (hashes : Hashes) (spec : Option (ChecksumAlgorithm × ChecksumType))
    (bytes : Nat → List Byte) (part : CompleteMultipartPart) : Prop where
  etag : part.etag = hashes.md5Hex (bytes part.partNumber)
  checksum : part.checksumValue = [] ∨ ∃ algorithm type, spec = some (algorithm, type) ∧
    part.checksumValue = hashes.sumBase64 algorithm (bytes part.partNumber)

lemma multipartChecksumSpec_algorithm (run : multipartChecksumSpec upload = .ok spec) :
    upload.checksumAlgorithm = spec.map Prod.fst := by
  unfold multipartChecksumSpec at run
  split at run
  · rename_i none _
    obtain rfl := Except.ok.inj run
    exact none
  · rename_i some _
    split_ifs at run
    obtain rfl := Except.ok.inj run
    exact some
  · cases run

/-- The ETag of parts with the MD5 of their bytes. -/
lemma multipartETag_digests {parts : List MultipartPart} {bytes : MultipartPart → List Byte}
    {etag : Text} (digests : ∀ part ∈ parts, part.etag = hashes.md5Hex (bytes part))
    (run : multipartETag (base.digesting hashes) parts = .ok etag) :
    etag = '"' :: hashes.md5Hex ((parts.map bytes).flatMap hashes.md5) ++
      '-' :: decimal (parts.map bytes).length ++ ['"'] := by
  simp only [multipartETag, bind_ok, require_ok, pure_ok] at run
  obtain ⟨_, -, rfl⟩ := run
  have decoded : (parts.map MultipartPart.etag).mapM Hex.decodeString =
      some (parts.map fun part => hashes.md5 (bytes part)) := by
    induction parts with
    | nil => rfl
    | cons part parts ih =>
      rw [List.map_cons, List.mapM_cons, digests part List.mem_cons_self, Hashes.md5Hex,
        Hex.decodeString_encodeToString,
        ih fun other member => digests other (List.mem_cons_of_mem _ member)]
      rfl
  have flat : (parts.map bytes).flatMap hashes.md5 =
      (parts.map fun part => hashes.md5 (bytes part)).flatten := by
    rw [List.flatMap_def, List.map_map]
    rfl
  simp only [Env.digesting, decoded, flat, List.length_map]

/-- The stored checksum of parts with the checksums of their bytes, and the final checksum that goes
with it. -/
lemma calculateMultipartChecksum_digests {parts : List MultipartPart}
    {bytes : MultipartPart → List Byte} (specified : multipartChecksumSpec upload = .ok spec)
    (digests : ∀ part ∈ parts, PartDigests hashes upload.checksumAlgorithm part (bytes part))
    (sizes : ∀ part ∈ parts, part.partSize = (bytes part).length)
    (run : calculateMultipartChecksum (base.digesting hashes) upload parts = .ok value) :
    ∃ requestValue, objectChecksum hashes spec (parts.map bytes) = some (requestValue, value) := by
  simp only [calculateMultipartChecksum, specified, bind_ok, Except.ok.injEq,
    exists_eq_left'] at run
  have algorithm := multipartChecksumSpec_algorithm specified
  rcases spec with _ | ⟨a, _ | _⟩
  · obtain rfl := pure_ok.mp run
    exact ⟨[], rfl⟩
  · have values : parts.map (fun part => (part.checksumValue, part.partSize)) =
        (parts.map bytes).map fun bytes =>
          (hashes.sumBase64 a bytes, (bytes.length : Int)) := by
      rw [List.map_map]
      refine List.map_congr_left fun part member => ?_
      rw [(digests part member).checksum a (by rw [algorithm]; rfl), sizes part member]
      rfl
    simp only [values, Env.digesting] at run
    cases combined : fullObject a ((parts.map bytes).map fun bytes =>
        (hashes.sumBase64 a bytes, (bytes.length : Int))) with
    | none =>
      rw [combined] at run
      cases run
    | some result =>
      rw [combined] at run
      obtain rfl := Except.ok.inj run
      exact ⟨result, by rw [objectChecksum, combined]; rfl⟩
  · have values : parts.map MultipartPart.checksumValue =
        (parts.map bytes).map (hashes.sumBase64 a) := by
      rw [List.map_map]
      refine List.map_congr_left fun part member => ?_
      rw [(digests part member).checksum a (by rw [algorithm]; rfl)]
      rfl
    simp only [values, Env.digesting] at run
    cases combined : hashes.composite a ((parts.map bytes).map (hashes.sumBase64 a)) with
    | none =>
      rw [combined] at run
      cases run
    | some result =>
      rw [combined] at run
      obtain rfl := Except.ok.inj run
      exact ⟨result.1, combined⟩

lemma sumBase64_ne_nil (algorithm : ChecksumAlgorithm) (bytes : List Byte) :
    hashes.sumBase64 algorithm bytes ≠ [] := by
  intro empty
  have decoded := hashes.decode_sumBase64 algorithm bytes
  rw [empty] at decoded
  cases algorithm <;> cases decoded

/-- The final checksum that goes with a stored value. -/
def finalValue (spec : Option (ChecksumAlgorithm × ChecksumType)) (stored : Text) (count : Nat) :
    Option Text :=
  match spec with
  | some (algorithm, .composite) => parseCompositeStored algorithm stored count
  | _ => some stored

lemma validateFinalChecksum_stored (specified : multipartChecksumSpec upload = .ok spec)
    (run : validateFinalChecksum (base.digesting hashes) upload request value = .ok ()) :
    request.finalChecksum = [] ∨
      finalValue spec value request.parts.length = some request.finalChecksum := by
  unfold validateFinalChecksum at run
  split_ifs at run with empty
  · exact .inl empty
  · right
    simp only [specified, bind_ok, Except.ok.injEq, exists_eq_left'] at run
    match spec with
    | none => exact congrArg some (require_ok.mp run).symm
    | some (a, .fullObject) => exact congrArg some (require_ok.mp run).symm
    | some (a, .composite) =>
      simp only [Env.digesting] at run
      rw [finalValue]
      cases parsed : parseCompositeStored a value request.parts.length with
      | none =>
        rw [parsed] at run
        cases run
      | some expected =>
        rw [parsed] at run
        rw [require_ok.mp run]

/-- The final checksum of the object is the one that goes with its stored value. -/
lemma finalValue_object {parts : List (List Byte)} {requestValue : Text}
    (summed : objectChecksum hashes spec parts = some (requestValue, value)) :
    finalValue spec value parts.length = some requestValue := by
  match spec with
  | none =>
    obtain ⟨rfl, rfl⟩ := Prod.mk.inj (Option.some.inj summed)
    rfl
  | some (a, .fullObject) =>
    obtain ⟨result, -, same⟩ := Option.map_eq_some_iff.mp summed
    obtain ⟨rfl, rfl⟩ := Prod.mk.inj same
    rfl
  | some (a, .composite) =>
    have positive : 0 < parts.length := by
      rw [List.length_pos_iff]
      rintro rfl
      cases summed
    obtain ⟨rfl, rfl⟩ := Prod.mk.inj (hashes.composite_sumBase64 summed)
    exact parseCompositeStored_suffixed (sumBase64_ne_nil a _) (hashes.decode_sumBase64 a _)
      positive

/-! ## The object -/

lemma map_eq_of_forall₂ {α γ : Type} {R : α → β → Prop} {f : α → γ} {g : β → γ} {as : List α}
    {bs : List β} (related : List.Forall₂ R as bs) (same : ∀ a b, R a b → f a = g b) :
    as.map f = bs.map g := by
  induction related with
  | nil => rfl
  | cons head _ ih => rw [List.map_cons, List.map_cons, same _ _ head, ih]

lemma mem_right_of_forall₂ {α : Type} {R : α → β → Prop} {as : List α} {bs : List β}
    (related : List.Forall₂ R as bs) {b : β} (member : b ∈ bs) : ∃ a ∈ as, R a b := by
  induction related with
  | nil => cases member
  | cons head _ ih =>
    rcases List.mem_cons.mp member with rfl | later
    · exact ⟨_, List.mem_cons_self, head⟩
    · obtain ⟨a, inside, related⟩ := ih later
      exact ⟨a, List.mem_cons_of_mem _ inside, related⟩

/-- A File that holds bytes holds them after a completion. -/
lemma Closed.stores {count : Int} {first second : List Nat} {fileID : Nat} {data : List Byte}
    (closed : Closed now st.store s' request upload fingerprint answer records count first second)
    (stores : st.Stores io content fileID block data) :
    { st with store := s' }.Stores io content fileID block data :=
  stores.frame (fun _ found => closed.readStoredFile_old found)
    (by rw [filePartRows, closed.parts, filePartRows])

/-- The records of the selected parts. -/
structure SelectedStored (hashes : Hashes) (io : BlockIO β)
    (content : β → Text → Option (List Byte)) (st : Storage β) (block : Nat)
    (upload : MultipartUpload) (bytes : Nat → List Byte) (record : MultipartPart × StoredFile) :
    Prop where
  digests : PartDigests hashes upload.checksumAlgorithm record.1 (bytes record.1.partNumber)
  stores : st.Stores io content record.1.fileID block (bytes record.1.partNumber)
  size : record.1.partSize = (bytes record.1.partNumber).length

lemma PartsStored.selected {legacy : Bool} {requested : CompleteMultipartPart}
    {record : MultipartPart × StoredFile}
    (parts : PartsStored hashes io content st block upload bytes)
    (chosen : Selected st.store upload.uploadID legacy requested record) :
    SelectedStored hashes io content st block upload bytes record ∧
      record.1.partNumber = requested.partNumber := by
  obtain ⟨member, own, number, active, -⟩ := activePart_ok chosen.found
  obtain ⟨stores, size⟩ := parts.stores record.1 member own active
  have kept : record.1.state ≠ .discarded := by
    rw [active]
    decide
  exact ⟨⟨parts.digests record.1 member own kept, stores, size⟩, number⟩

lemma PartsStored.names {requested : CompleteMultipartPart} {record : MultipartPart × StoredFile}
    (parts : PartsStored hashes io content st block upload bytes)
    (chosen : Selected st.store upload.uploadID spec.isNone requested record)
    (ok : multipartChecksumSpec upload = .ok spec)
    (legacy : spec = none → requested.checksumValue = []) :
    NamesDigests hashes spec bytes requested := by
  obtain ⟨stored, number⟩ := parts.selected chosen
  refine ⟨by rw [← chosen.etag, stored.digests.etag, number], ?_⟩
  cases spec with
  | none => exact .inl (legacy rfl)
  | some kind =>
    rcases chosen.agrees.resolve_left Bool.false_ne_true with empty | same
    · exact .inl empty
    · refine .inr ⟨kind.1, kind.2, rfl, ?_⟩
      rw [same, stored.digests.checksum kind.1 (multipartChecksumSpec_algorithm ok), number]

/-- The sources of the object. -/
def selectedSources (bytes : Nat → List Byte) (records : List (MultipartPart × StoredFile)) :
    List (Nat × List Byte) :=
  records.map fun record => (record.1.fileID, bytes record.1.partNumber)

/-- The selected parts have the bytes of the requested numbers. -/
lemma PartsStored.selectedAll {legacy : Bool}
    (parts : PartsStored hashes io content st block upload bytes)
    (selected : List.Forall₂ (Selected st.store upload.uploadID legacy) request.parts records) :
    (∀ record ∈ records, SelectedStored hashes io content st block upload bytes record) ∧
      records.map (fun record => bytes record.1.partNumber) = requestedBytes request bytes ∧
      CompositeStream.joined (selectedSources bytes records) =
        (requestedBytes request bytes).flatten := by
  have bytesOf : requestedBytes request bytes =
      records.map fun record => bytes record.1.partNumber :=
    map_eq_of_forall₂ selected fun requested record chosen => by rw [(parts.selected chosen).2]
  refine ⟨fun record member => ?_, bytesOf.symm, ?_⟩
  · obtain ⟨requested, -, chosen⟩ := mem_right_of_forall₂ selected member
    exact (parts.selected chosen).1
  · rw [bytesOf, CompositeStream.joined, selectedSources, List.flatMap_map, List.flatMap_def]

lemma sum_lengths (bytes : Nat → List Byte) (records : List (MultipartPart × StoredFile)) :
    (records.map fun record => ((bytes record.1.partNumber).length : Int)).sum =
      (CompositeStream.joined (selectedSources bytes records)).length := by
  induction records with
  | nil => rfl
  | cons record records ih =>
    rw [List.map_cons, List.sum_cons, ih]
    simp [CompositeStream.joined, selectedSources]

/-- The File of the object is composed of the selected parts. -/
lemma Closed.composes {count : Int} {first second : List Nat}
    (closed : Closed now st.store s' request upload fingerprint answer records count first second)
    (sound : Sound st.store)
    (below : ∀ segment ∈ st.store.segments, segment.fileID < st.store.nextFileID)
    (stored : ∀ record ∈ records, SelectedStored hashes io content st block upload bytes record)
    (nonempty : request.parts ≠ []) :
    { st with store := s' }.Composes io content answer.fileID block
        (selectedSources bytes records) ∧
      answer.size = (CompositeStream.joined (selectedSources bytes records)).length := by
  have sizes : CompositeStream.sizedSources (selectedSources bytes records) =
      records.map fun record => (record.1.fileID, record.1.partSize) := by
    rw [CompositeStream.sizedSources, selectedSources, List.map_map]
    refine List.map_congr_left fun record member => ?_
    rw [(stored record member).size]
    rfl
  have size : answer.size = (CompositeStream.joined (selectedSources bytes records)).length := by
    rw [closed.size, List.map_congr_left fun record member => (stored record member).size]
    exact sum_lengths bytes records
  refine ⟨⟨⟨_, closed.readStoredFile_new sound, size, rfl⟩, ?_, ⟨now, ?_⟩, fun source member => ?_⟩,
    size⟩
  · intro none
    rw [selectedSources, List.map_eq_nil_iff] at none
    have empty := closed.selected
    rw [none, List.forall₂_nil_right_iff] at empty
    exact nonempty empty
  · rw [sizes]
    exact closed.segmentsOf below
  · obtain ⟨record, inRecords, rfl⟩ := List.mem_map.mp member
    exact closed.stores (stored record inRecords).stores

/-- A completion of an active upload publishes its parts. -/
lemma Completion.publishesParts {total : Int} {checksums : List (Option (Text × Text))}
    {published closed : Store} (sound : Sound st.store)
    (below : ∀ segment ∈ st.store.segments, segment.fileID < st.store.nextFileID)
    (path : ObjectPath) (located : path.text = objectPath request.bucket request.key)
    (own : upload.uploadID = request.uploadID) (nonempty : request.parts ≠ [])
    (parts : PartsStored hashes io content st block upload bytes)
    (checked : validateCompleteChecksumRequest (base.digesting hashes) upload request = .ok ())
    (completion : Completion (base.digesting hashes) now (st.store.claimed request.uploadID now) s'
      request upload fingerprint answer records total checksums published closed) :
    PublishesParts (base.digesting hashes) hashes now s' upload request answer
        (requestedBytes request bytes) ∧
      (∀ part ∈ request.parts, NamesDigests hashes answer.checksum bytes part) ∧
      ∃ sources, CompositeStream.joined sources = (requestedBytes request bytes).flatten ∧
        { st with store := s' }.Composes io content answer.fileID block sources := by
  obtain ⟨first, second, shut⟩ := completion.closed sound path located
  have selected : List.Forall₂ (Selected st.store upload.uploadID answer.checksum.isNone)
      request.parts records := own ▸ shut.selected
  obtain ⟨stored, bytesOf, joined⟩ := parts.selectedAll selected
  obtain ⟨composes, size⟩ := shut.composes sound below stored nonempty
  have rows : ∀ part ∈ records.map Prod.fst,
      PartDigests hashes upload.checksumAlgorithm part (bytes part.partNumber) ∧
        part.partSize = (bytes part.partNumber).length := by
    intro part member
    obtain ⟨record, inRecords, rfl⟩ := List.mem_map.mp member
    exact ⟨(stored record inRecords).digests, (stored record inRecords).size⟩
  have partBytes : (records.map Prod.fst).map (fun part => bytes part.partNumber) =
      requestedBytes request bytes := by
    rw [List.map_map]
    exact bytesOf
  have count : (requestedBytes request bytes).length = request.parts.length := by
    rw [requestedBytes, List.length_map]
  refine ⟨⟨?size, ?object, ?etag, completion.spec, ?checksum, ?numbers⟩, ?names, _,
    joined, composes⟩
  case size => rw [size, joined]
  case object =>
    obtain ⟨entry, linked⟩ := completion.linked
    rw [← located] at linked
    have tree : SoundTree ((st.store.claimed request.uploadID now).withComposite now
        (records.map Prod.fst) answer.size total
        (((records.map Prod.fst).map MultipartPart.partSize).zip checksums)).dir := sound.tree
    obtain ⟨-, info, found, rest⟩ := publishS3ObjectTx_rewrites tree path linked
    obtain ⟨hit, marked, -⟩ := finalizeMultipartParts_eq completion.finalized
    rw [← located, completion.file]
    refine ⟨info, ?_, rest⟩
    rw [completion.finished, marked]
    exact found
  case etag =>
    have tagged := multipartETag_digests (fun part member => (rows part member).1.etag)
      completion.tagged
    rw [partBytes] at tagged
    exact tagged
  case checksum =>
    obtain ⟨requestValue, summed⟩ := calculateMultipartChecksum_digests completion.spec
      (fun part member => (rows part member).1) (fun part member => (rows part member).2)
      completion.summed
    rw [partBytes] at summed
    refine ⟨requestValue, summed, ?_⟩
    refine (validateFinalChecksum_stored completion.spec completion.final).imp_right fun final => ?_
    rw [← count, finalValue_object summed] at final
    exact (Option.some.inj final).symm
  case numbers =>
    intro algorithm composite
    exact validateCompleteChecksumRequest_numbers (composite ▸ completion.spec) checked
  case names =>
    intro part member
    obtain ⟨record, -, chosen⟩ := exists_of_forall₂ selected member
    refine parts.names chosen completion.spec fun none => ?_
    exact (validateCompleteChecksumRequest_legacy (none ▸ completion.spec) checked).2 part member

/-! ## A repeated request -/

/-- What a request on a completed upload gets, and what it may name. -/
structure Repeats (env : Env) (hashes : Hashes) (s s' : Store) (upload : MultipartUpload)
    (request : CompleteMultipartRequest) (answer : CompleteMultipartResult)
    (bytes : Nat → List Byte) : Prop where
  unchanged : s' = s
  file : answer.fileID = upload.resultFileID
  etag : answer.etag = upload.resultETag
  value : answer.checksumValue = upload.resultChecksum
  spec : multipartChecksumSpec upload = .ok answer.checksum
  fingerprint : multipartCompletionFingerprint env request.parts = upload.fingerprint
  names : answer.checksum ≠ none →
    ∀ part ∈ request.parts, NamesDigests hashes answer.checksum bytes part
  legacy : answer.checksum = none →
    request.finalChecksum = [] ∧ ∀ part ∈ request.parts, part.checksumValue = []
  final : request.finalChecksum = [] ∨
    finalValue answer.checksum answer.checksumValue request.parts.length =
      some request.finalChecksum

lemma validateCompletedPartChecksums_names (specified : multipartChecksumSpec upload = .ok spec)
    (own : upload.uploadID = request.uploadID)
    (parts : PartsStored hashes io content st block upload bytes) (summed : spec ≠ none)
    (run : st.store.validateCompletedPartChecksums upload request = .ok ()) :
    ∀ part ∈ request.parts, NamesDigests hashes spec bytes part := by
  simp only [validateCompletedPartChecksums, specified, bind_ok, Except.ok.injEq,
    exists_eq_left', if_neg summed] at run
  intro part member
  have checked := forM_ok run part member
  cases found : st.store.uploadParts.find? (fun row => row.uploadID = request.uploadID ∧
      row.partNumber = part.partNumber ∧ row.state = .selected) with
  | none =>
    rw [found] at checked
    cases checked
  | some row =>
    rw [found] at checked
    obtain ⟨etag, checksum⟩ := require_ok.mp checked
    have inRows := List.mem_of_find?_eq_some found
    have chosen := List.find?_some found
    simp only [decide_eq_true_eq] at chosen
    obtain ⟨ownRow, number, state⟩ := chosen
    have digests := parts.digests row inRows (ownRow.trans own.symm) (by rw [state]; decide)
    rw [number] at digests
    refine ⟨by rw [← etag, digests.etag], checksum.imp_right fun same => ?_⟩
    obtain ⟨⟨algorithm, type⟩, rfl⟩ := Option.ne_none_iff_exists'.mp summed
    refine ⟨algorithm, type, rfl, ?_⟩
    rw [same, digests.checksum algorithm]
    rw [multipartChecksumSpec_algorithm specified]
    rfl

lemma readCompletedMultipartResult_repeats (own : upload.uploadID = request.uploadID)
    (parts : PartsStored hashes io content st block upload bytes)
    (run : st.store.readCompletedMultipartResult (base.digesting hashes) upload request
      (multipartCompletionFingerprint (base.digesting hashes) request.parts) = .ok answer) :
    Repeats (base.digesting hashes) hashes st.store st.store upload request answer bytes ∧
      ∀ size ∈ request.expectedSize, size = answer.size := by
  obtain ⟨print, file, spec, found, specified, rfl⟩ := readCompletedMultipartResult_ok run
  unfold readCompletedMultipartResult at run
  obtain ⟨_, -, rest⟩ := bind_ok.mp run
  simp only [found, bind_ok, pure_ok, require_ok] at rest
  obtain ⟨_, checked, _, sized, _, completed, _, final, -⟩ := rest
  refine ⟨⟨rfl, rfl, rfl, rfl, specified, print.symm, fun summed => ?_, fun legacy => ?_, ?_⟩,
    sized⟩
  · exact validateCompletedPartChecksums_names specified own parts summed completed
  · exact validateCompleteChecksumRequest_legacy (legacy ▸ specified) checked
  · exact validateFinalChecksum_stored specified final

/-! ## Every accepted request -/

/-- **Completing publishes what was uploaded.**  A completion that is accepted names increasing
parts, with the digests and the size of their bytes.  If the upload was active, the object of the
key is a new File with the bytes of the parts one after another, the ETag over their MD5s and the
checksum over their checksums, and `OpenFile` returns a stream over these bytes.  If it was
completed before, nothing changes and the answer is the recorded one. -/
theorem completeMultipartUpload_publishes {bytes : Nat → List Byte} (keeps : io.Keeps content)
    (prompt : io.Prompt) (sound : Sound st.store)
    (below : ∀ segment ∈ st.store.segments, segment.fileID < st.store.nextFileID)
    (path : ObjectPath) (located : path.text = objectPath request.bucket request.key)
    (matched : st.store.matchedUpload request.uploadID request.bucket request.key = .ok upload)
    (parts : PartsStored hashes io content st block upload bytes)
    (run : st.store.completeMultipartUpload (base.digesting hashes) now request =
      .ok (s', some answer)) :
    request.parts ≠ [] ∧ (request.parts.Pairwise fun a b => a.partNumber < b.partNumber) ∧
      (∀ size ∈ request.expectedSize, size = answer.size) ∧
      ((upload.state = .completed ∧
          Repeats (base.digesting hashes) hashes st.store s' upload request answer bytes) ∨
        (upload.state = .active ∧
          PublishesParts (base.digesting hashes) hashes now s' upload request answer
            (requestedBytes request bytes) ∧
          (∀ part ∈ request.parts, NamesDigests hashes answer.checksum bytes part) ∧
          ∀ cache : FileCache, (∀ file raw, cache.entry file = some raw →
            file.fileID = answer.fileID → raw.length =
              (requestedBytes request bytes).flatten.length →
            raw = (requestedBytes request bytes).flatten) →
          ∃ enough, ∀ rounds, enough ≤ rounds → ∃ reads, ∀ more, reads ≤ more → ∃ opened,
            Storage.openFile io (CompositeStream.stream io { st with store := s' } rounds)
              CompositeStream.compositeIOStream cache more { st with store := s' } answer.fileID =
                some (.ok opened) ∧
            ∀ calls, ∃ last,
              ServesAll .eof (requestedBytes request bytes).flatten 0 calls
                ((Storage.openedStream io
                  (CompositeStream.stream io { st with store := s' } rounds)
                  { st with store := s' } answer.fileID).run opened calls).1 last ∧
              (Storage.openedStream io (CompositeStream.stream io { st with store := s' } rounds)
                { st with store := s' } answer.fileID).Ends .eof
                ((Storage.openedStream io
                  (CompositeStream.stream io { st with store := s' } rounds)
                  { st with store := s' } answer.fileID).run opened calls).2
                ((requestedBytes request bytes).flatten.drop last))) := by
  obtain ⟨upload', matched', valid, outcome⟩ := completeMultipartUpload_cases run
  obtain rfl : upload' = upload := Except.ok.inj (matched'.symm.trans matched)
  have own := (matchedUpload_ok matched).2.2
  simp only [validateCompleteMultipartRequest, bind_ok, require_ok] at valid
  obtain ⟨_, ⟨-, -, -, nonempty, -⟩, increasing⟩ := valid
  refine ⟨nonempty, (validateCompleteParts_increasing increasing).2, ?_⟩
  rcases outcome with ⟨answer', completed, rfl, same, read⟩ | ⟨no, -⟩ |
    ⟨answer', records, total, checksums, published, closed, active, same, checked, completion⟩
  · obtain rfl := Option.some.inj same
    obtain ⟨repeats, sized⟩ := readCompletedMultipartResult_repeats own parts read
    exact ⟨sized, .inl ⟨completed, repeats⟩⟩
  · cases no
  · obtain rfl := Option.some.inj same
    obtain ⟨publishes, names, sources, joined, composes⟩ :=
      completion.publishesParts sound below path located own nonempty parts checked
    refine ⟨completion.sized, .inr ⟨active, publishes, names, fun cache clean => ?_⟩⟩
    rw [← joined] at clean ⊢
    exact ⟨_, fun rounds enough => composes.opens keeps prompt enough clean⟩

open BlockIO

/-- The bytes of a part that need not be the last one. -/
def largeBytes : List Byte := List.replicate 5242880 7

/-- Blocks of up to 8 MiB, and the digests of `frontHashes`. -/
abbrev largeEnv : Env := Env.digesting { Env.plain with maxFileSize := 8388608 } frontHashes

/-- The same blocks in memory. -/
def memory : BlockIO MemBlocks := newMemBackend 8388608 8 1

/-- A File of one block. -/
def storeBlock (key : Char) (size : Int) : List Action :=
  [.createDraft size false, .createPart 0 ⟨[key], [key], 1, [], size⟩, .finishCreate 0]

/-- Put a File of so many bytes into the upload. -/
def putBlock (number : Nat) (size : Int) (bytes : List Byte) : Action :=
  .s3 (.putPart ⟨['u'], bucketB.name, keyA.text, number, number, size, frontHashes.md5Hex bytes,
    frontHashes.sumBase64 .crc64nvme bytes, 8388608⟩)

/-- The storage after two parts were put into an upload. -/
def stagedParts : Storage MemBlocks where
  store := ((System.init 1).run largeEnv noArchive
    (storeBlock 'x' 5242880 ++ storeBlock 'y' 3 ++
      [.s3 createA, putBlock 1 5242880 largeBytes, putBlock 2 3 [1, 2, 3]])).store
  blocks := [(['x'], largeBytes), (['y'], [1, 2, 3])]
  uploads := []
  deletes := []

/-- The bytes of the parts. -/
def partBytes (number : Nat) : List Byte := if number = 1 then largeBytes else [1, 2, 3]

/-- Complete with both parts. -/
def completeParts : CompleteMultipartRequest :=
  ⟨['u'], bucketB.name, keyA.text,
    [⟨1, frontHashes.md5Hex largeBytes, [], []⟩, ⟨2, frontHashes.md5Hex [1, 2, 3], [], []⟩],
    8388608, none, [], [], [], some 5242883⟩

/-- A File of one block holds the bytes of the block. -/
lemma stagedParts_stores {number : Nat} {size : Int} {bytes : List Byte} (row : FilePart)
    (found : (stagedParts.store.readStoredFile number).map (fun file =>
      (file.fileSize, file.fileLayout, file.fileState)) = some (size, .physical, .ready))
    (rows : stagedParts.store.filePartRows number = [row])
    (placed : row.fileID = number ∧ row.filePartID = 0 ∧ row.filePartSize = size)
    (stored : memBlock stagedParts.blocks row.fileKey = some bytes)
    (length : (bytes.length : Int) = size) (positive : 0 < size) (fits : size ≤ 8388608) :
    stagedParts.Stores memory memBlock number 8388608 bytes where
  file := by
    obtain ⟨file, read, same⟩ := Option.map_eq_some_iff.mp found
    obtain ⟨sized, layout, state⟩ : file.fileSize = size ∧ file.fileLayout = .physical ∧
      file.fileState = .ready := by simpa using same
    exact ⟨file, read, sized.trans length.symm, layout, state⟩
  blockSize := rfl
  positive := by decide
  few := by
    have most : (1 : Nat) ≤ maxFilePartCount.toNat := by decide
    have := Nat.mul_le_mul_right 8388608 most
    omega
  rows := by
    obtain ⟨own, here, sized⟩ := placed
    rw [rows, ← List.append_nil bytes]
    refine .cons own here (sized.trans length.symm) stored (by omega) ?_ .nil
    rw [List.append_nil]
    omega

lemma uploadParts_stagedParts : stagedParts.store.uploadParts =
    [⟨['u'], 1, .active, 1, 5242880, frontHashes.md5Hex largeBytes,
      frontHashes.sumBase64 .crc64nvme largeBytes, 1, 1, 1⟩,
     ⟨['u'], 2, .active, 2, 3, frontHashes.md5Hex [1, 2, 3],
      frontHashes.sumBase64 .crc64nvme [1, 2, 3], 1, 1, 1⟩] := by
  decide +kernel

lemma partsStored_stagedParts (algorithm : upload.checksumAlgorithm = some .crc64nvme) :
    PartsStored frontHashes memory memBlock stagedParts 8388608 upload partBytes where
  digests part member _ _ := by
    rw [uploadParts_stagedParts] at member
    rw [algorithm]
    rcases List.mem_pair.mp member with rfl | rfl
    all_goals exact ⟨rfl, fun a same => Option.some.inj same ▸ rfl⟩
  stores part member _ _ := by
    have large : (largeBytes.length : Int) = 5242880 := by
      rw [largeBytes, List.length_replicate]
      rfl
    rw [uploadParts_stagedParts] at member
    rcases List.mem_pair.mp member with rfl | rfl
    · exact ⟨stagedParts_stores ⟨1, 0, ['x'], [], 5242880, 1, 1⟩ (by decide +kernel)
        (by decide +kernel) ⟨rfl, rfl, rfl⟩ rfl large (by decide) (by decide), large.symm⟩
    · exact ⟨stagedParts_stores ⟨2, 0, ['y'], [], 3, 1, 1⟩ (by decide +kernel)
        (by decide +kernel) ⟨rfl, rfl, rfl⟩ rfl rfl (by decide) (by decide), rfl⟩

/-- No copies of Files. -/
def uncached : FileCache := ⟨none, none, fun _ => none, .kept⟩

/-- The object of `a` is the bytes of both parts, with the ETag over their MD5s. -/
theorem stagedParts_published : ∃ s' answer,
    stagedParts.store.completeMultipartUpload largeEnv 1 completeParts = .ok (s', some answer) ∧
    answer.size = 5242883 ∧
    answer.etag = '"' :: frontHashes.md5Hex
      (frontHashes.md5 largeBytes ++ frontHashes.md5 [1, 2, 3]) ++ "-2\"".toList ∧
    ∃ rounds reads opened,
      Storage.openFile memory (CompositeStream.stream memory
        { stagedParts with store := s' } rounds)
        CompositeStream.compositeIOStream uncached reads { stagedParts with store := s' }
        answer.fileID = some (.ok opened) ∧
      ∀ calls, ∃ last, ServesAll .eof (largeBytes ++ [1, 2, 3]) 0 calls
        ((Storage.openedStream memory
          (CompositeStream.stream memory { stagedParts with store := s' } rounds)
          { stagedParts with store := s' } answer.fileID).run opened calls).1 last := by
  have answered : ((stagedParts.store.completeMultipartUpload largeEnv 1
      completeParts).toOption.bind Prod.snd).isSome = true := by decide +kernel
  obtain ⟨⟨s', result⟩, run⟩ : ∃ result, stagedParts.store.completeMultipartUpload largeEnv 1
      completeParts = .ok result := exists_of_succeeds (by decide +kernel)
  rw [run] at answered
  obtain ⟨answer, rfl⟩ : ∃ answer, result = some answer := Option.isSome_iff_exists.mp answered
  obtain ⟨upload, matched, -⟩ := completeMultipartUpload_cases run
  have uploads : ∀ upload ∈ stagedParts.store.uploads,
      upload.state = .active ∧ upload.checksumAlgorithm = some .crc64nvme := by decide +kernel
  obtain ⟨active, algorithm⟩ := uploads upload (matchedUpload_ok matched).2.1
  have sound : Sound stagedParts.store :=
    (System.protocolSound ((System.Reachable.init 1).run _)).sound
  obtain ⟨-, -, sized, completed | ⟨-, publishes, -, opens⟩⟩ := completeMultipartUpload_publishes
    (newMemBackend_keeps 8388608 8 1) (newMemBackend_prompt 8388608 8 1) sound (by decide +kernel)
    (bucketB.path keyA) rfl matched (partsStored_stagedParts algorithm) run
  · rw [active] at completed
    cases completed.1
  obtain ⟨rounds, enough⟩ := opens uncached fun _ _ found => by cases found
  obtain ⟨reads, more⟩ := enough rounds le_rfl
  obtain ⟨opened, success, serves⟩ := more reads le_rfl
  refine ⟨s', answer, run, (sized _ rfl).symm, ?_, rounds, reads, opened, success, fun calls => ?_⟩
  · rw [publishes.etag]
    rfl
  · obtain ⟨last, serves, -⟩ := serves calls
    exact ⟨last, serves⟩

end TgFile.Store
