import TgFile.Errors
import TgFile.Go.Path
import TgFile.Go.Reader

/-! # Block backends

`blockio.IBlockIO` over the state of a backend, the wrapper that rotates every byte, and the
in-memory backend.  A backend keeps blocks when `Upload` stores what it read to the end and
`Download` returns it. -/

namespace TgFile

open Go

/-- `blockio.UploadResult`. -/
structure UploadResult where
  fileKey : Text
  deleteRef : Text
  uploadedAt : Int
  deriving DecidableEq, Repr

/-- `blockio.IBlockIO`; `upload` may return no result. -/
structure BlockIO (β : Type) where
  name : Text
  maxFileSize : Int
  upload : {σ : Type} → ReadFn σ → σ → β → Except Err (Option UploadResult) × σ × β
  download : β → Text → Int → Except Err Reader
  deleteBlocks : β → List Text → Except Err Unit × β

namespace BlockIO

variable {β : Type}

/-! ## Rotation -/

/-- The value of `newRotateReadCloser`; `Int.tmod` is the remainder of Go. -/
def rotation (val : Int) : Nat :=
  let val := val.tmod 256
  (if val < 0 then val + 256 else val).toNat

/-- A byte of a rotated block. -/
def rotateByte (val : Int) (byte : Byte) : Byte :=
  UInt8.ofNat ((byte.toNat + rotation val) % 256)

/-- The backend with rotated bytes. -/
def newRotateBackend (impl : BlockIO β) (rotateVal : Int) : BlockIO β :=
  if rotateVal ≤ 0 then impl
  else
    { impl with
      upload := fun read r blocks => impl.upload (mapRead (rotateByte rotateVal) read) r blocks
      download := fun blocks fileKey pos =>
        Reader.map (rotateByte (-rotateVal)) <$> impl.download blocks fileKey pos }

lemma rotateByte_neg (val : Int) (byte : Byte) :
    rotateByte (-val) (rotateByte val byte) = byte := by
  have low : -256 < val.tmod 256 := Int.lt_tmod_of_pos val (by decide)
  have high : val.tmod 256 < 256 := Int.tmod_lt_of_pos val (by decide)
  have opposite : (rotation val + rotation (-val)) % 256 = 0 := by
    simp only [rotation, Int.neg_tmod]
    split_ifs <;> omega
  have small : byte.toNat < 256 := byte.toNat_lt
  apply UInt8.toNat_inj.mp
  simp only [rotateByte, UInt8.toNat_ofNat']
  omega

lemma map_rotateByte_neg (val : Int) (bytes : List Byte) :
    (bytes.map (rotateByte val)).map (rotateByte (-val)) = bytes := by
  rw [List.map_map]
  exact (List.map_congr_left fun byte _ => rotateByte_neg val byte).trans (List.map_id' bytes)

/-! ## Backends that keep blocks -/

/-- `Upload` reads its reader to the end and stores the bytes under its key, no upload loses a
block, and `Download` returns the block from a position on. -/
structure Keeps (io : BlockIO β) (content : β → Text → Option (List Byte)) : Prop where
  uploaded : ∀ {σ : Type} {read : ReadFn σ} {r r' : σ} {blocks blocks' : β}
    {result : UploadResult}, io.upload read r blocks = (.ok (some result), r', blocks') →
    ∃ data, Drained read r data .eof r' ∧ content blocks' result.fileKey = some data
  kept : ∀ {σ : Type} {read : ReadFn σ} {r r' : σ} {blocks blocks' : β}
    {outcome : Except Err (Option UploadResult)},
    io.upload read r blocks = (outcome, r', blocks') →
    ∀ key data, content blocks key = some data → content blocks' key = some data
  downloaded : ∀ {blocks : β} {key : Text} {data : List Byte} {pos : Int},
    content blocks key = some data → 0 ≤ pos →
    ∃ r, io.download blocks key pos = .ok r ∧ r.content = data.drop pos.toNat ∧ r.ending = .eof

/-- The blocks of a rotated backend as its users see them. -/
def rotated (rotateVal : Int) (content : β → Text → Option (List Byte)) :
    β → Text → Option (List Byte) :=
  if rotateVal ≤ 0 then content
  else fun blocks key => (content blocks key).map (List.map (rotateByte (-rotateVal)))

lemma Keeps.rotate {io : BlockIO β} {content : β → Text → Option (List Byte)}
    (keeps : io.Keeps content) (rotateVal : Int) :
    (newRotateBackend io rotateVal).Keeps (rotated rotateVal content) := by
  by_cases plain : rotateVal ≤ 0
  · rw [newRotateBackend, if_pos plain, rotated, if_pos plain]
    exact keeps
  · rw [newRotateBackend, if_neg plain, rotated, if_neg plain]
    refine ⟨fun run => ?_, fun run key data present => ?_, fun present nonneg => ?_⟩
    · obtain ⟨data, drained, stored⟩ := keeps.uploaded run
      obtain ⟨raw, rfl, below⟩ := drained.map
      exact ⟨raw, below, by rw [stored, Option.map_some, map_rotateByte_neg]⟩
    · obtain ⟨raw, stored, rfl⟩ := Option.map_eq_some_iff.mp present
      rw [keeps.kept run key raw stored, Option.map_some]
    · obtain ⟨raw, stored, rfl⟩ := Option.map_eq_some_iff.mp present
      obtain ⟨r, run, same, ending⟩ := keeps.downloaded stored nonneg
      refine ⟨r.map (rotateByte (-rotateVal)), ?_, ?_, ending⟩
      · simp only [run]
        rfl
      · rw [Reader.content_map, same, List.map_drop]

@[simp]
lemma maxFileSize_newRotateBackend (io : BlockIO β) (rotateVal : Int) :
    (newRotateBackend io rotateVal).maxFileSize = io.maxFileSize := by
  unfold newRotateBackend
  split_ifs <;> rfl

/-! ## The in-memory backend -/

/-- The blocks of `memBlockIO` under their keys. -/
abbrev MemBlocks := List (Text × List Byte)

/-- `uuid.NewString`: a key that no block has. -/
def newKey (blocks : MemBlocks) : Text :=
  'k' :: (blocks.map Prod.fst).flatten

/-- The bytes under a key. -/
def memBlock (blocks : MemBlocks) (key : Text) : Option (List Byte) :=
  (blocks.find? fun block => block.1 = key).map Prod.snd

/-- `mem.New`, with a bound on the reads of `io.ReadAll` and the time of uploads. -/
def newMemBackend (bksize : Int) (reads : Nat) (now : Int) : BlockIO MemBlocks where
  name := "mem".toList
  maxFileSize := if bksize = 0 then 4 * 1024 else bksize
  upload read r blocks :=
    match drain read (fun _ => 512) reads r with
    | none => (.error .internal, r, blocks)
    | some (_, .failed, r') => (.error .internal, r', blocks)
    | some (raw, .eof, r') =>
      (.ok (some ⟨newKey blocks, newKey blocks, now⟩), r', blocks ++ [(newKey blocks, raw)])
  download blocks fileKey pos :=
    match memBlock blocks fileKey with
    | none => .error .notExist
    | some data => .ok (Reader.ofBytes (data.drop pos.toNat))
  deleteBlocks blocks deleteRefs :=
    let refs := deleteRefs.takeWhile fun ref => ref ≠ []
    (if refs.length = deleteRefs.length then .ok () else .error .internal,
      blocks.filter fun block => block.1 ∉ refs)

lemma newKey_new (blocks : MemBlocks) : ∀ block ∈ blocks, block.1 ≠ newKey blocks := by
  intro block member same
  have longer : block.1.length ≤ (blocks.map Prod.fst).flatten.length :=
    (List.sublist_flatten_of_mem (List.mem_map.mpr ⟨block, member, rfl⟩)).length_le
  have length := congrArg List.length same
  rw [newKey, List.length_cons] at length
  omega

lemma newMemBackend_keeps (bksize : Int) (reads : Nat) (now : Int) :
    (newMemBackend bksize reads now).Keeps memBlock := by
  have append : ∀ (blocks : MemBlocks) (key : Text) (raw : List Byte),
      memBlock (blocks ++ [(newKey blocks, raw)]) key =
        (memBlock blocks key).or (if newKey blocks = key then some raw else none) := by
    intro blocks key raw
    simp only [memBlock, List.find?_append, Option.map_or]
    by_cases same : newKey blocks = key <;> simp [same]
  refine ⟨fun {σ read r r' blocks blocks' result} run => ?_,
    fun {σ read r r' blocks blocks' outcome} run key data present => ?_,
    fun {blocks key data pos} present nonneg => ?_⟩
  · simp only [newMemBackend] at run
    cases drained : drain read (fun _ => 512) reads r with
    | none => simp [drained] at run
    | some got =>
      obtain ⟨raw, ending, after⟩ := got
      cases ending with
      | failed => simp [drained] at run
      | eof =>
        simp only [drained, Prod.mk.injEq, Except.ok.injEq, Option.some.injEq] at run
        obtain ⟨rfl, rfl, rfl⟩ := run
        refine ⟨raw, drained_of_drain drained, ?_⟩
        have absent : memBlock blocks (newKey blocks) = none := by
          simpa [memBlock] using newKey_new blocks
        rw [append, absent, if_pos rfl]
        rfl
  · simp only [newMemBackend] at run
    cases drained : drain read (fun _ => 512) reads r with
    | none =>
      simp only [drained, Prod.mk.injEq] at run
      exact run.2.2 ▸ present
    | some got =>
      obtain ⟨raw, ending, after⟩ := got
      cases ending with
      | failed =>
        simp only [drained, Prod.mk.injEq] at run
        exact run.2.2 ▸ present
      | eof =>
        simp only [drained, Prod.mk.injEq] at run
        rw [← run.2.2, append, present]
        rfl
  · refine ⟨Reader.ofBytes (data.drop pos.toNat), ?_, ?_, rfl⟩
    · simp only [newMemBackend, present]
    · simp [Reader.ofBytes, Reader.content]

end BlockIO

end TgFile
