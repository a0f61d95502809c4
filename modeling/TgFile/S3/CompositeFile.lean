import TgFile.BlockIO.CompositeServes
import TgFile.S3.MultipartRuns

/-! # Opening a composite File

The segment rows of a File name its sources in order.  If every source holds its bytes, `OpenFile`
returns a stream over the bytes of the sources, one after another. -/

namespace TgFile

open Go Result

variable {β : Type} {io : BlockIO β} {content : β → Text → Option (List Byte)} {st : Storage β}
  {fileID block : Nat} {sources : List (Nat × List Byte)}

namespace CompositeStream

/-- The sources with their sizes, as the segment rows keep them. -/
def sizedSources (sources : List (Nat × List Byte)) : List (Nat × Int) :=
  sources.map fun source => (source.1, (source.2.length : Int))

/-- The loop over the segment rows gives the segments of the sources. -/
lemma loadSegments_segmentRows {s : Store} {now fileSize : Int} {index start : Nat}
    (stored : ∀ source ∈ sources, ∃ file, s.readStoredFile source.1 = some file ∧
      file.fileSize = source.2.length ∧ file.fileLayout = .physical ∧ file.fileState = .ready)
    (fits : ((start + (joined sources).length : Nat) : Int) ≤ fileSize) :
    loadSegments s fileSize index start (Store.segmentRows fileID now index
      (sizedSources sources)) =
      .ok (segmentsFrom index start sources, ((start + (joined sources).length : Nat) : Int)) := by
  induction sources generalizing index start with
  | nil => simp [loadSegments, Store.segmentRows, sizedSources, segmentsFrom, joined]
  | cons source rest ih =>
    obtain ⟨sourceID, bytes⟩ := source
    obtain ⟨file, found, sized, physical, ready⟩ := stored (sourceID, bytes) List.mem_cons_self
    have length : (joined ((sourceID, bytes) :: rest)).length =
        bytes.length + (joined rest).length := by simp [joined]
    rw [length] at fits ⊢
    have rows : Store.segmentRows fileID now index (sizedSources ((sourceID, bytes) :: rest)) =
        ⟨fileID, index, sourceID, bytes.length, now, now⟩ ::
          Store.segmentRows fileID now (index + 1) (sizedSources rest) := by
      simp [Store.segmentRows, sizedSources]
    have valid : validSegment s ⟨fileID, index, sourceID, bytes.length, now, now⟩ index start
        fileSize = true := by
      simp only [validSegment, found, Option.any_some, decide_eq_true_eq, true_and]
      refine ⟨ready, physical, sized, Int.natCast_nonneg _, ?_⟩
      omega
    have fitsRest : ((start + bytes.length + (joined rest).length : Nat) : Int) ≤ fileSize := by
      omega
    have later := @ih (index + 1) (start + bytes.length)
      (fun source member => stored source (List.mem_cons_of_mem _ member)) fitsRest
    rw [Int.natCast_add start] at later
    rw [rows]
    simp only [loadSegments, bind_ok, require_ok, pure_ok]
    refine ⟨(), valid, _, later, ?_⟩
    rw [segmentsFrom, ← Nat.add_assoc]

end CompositeStream

namespace Storage

open CompositeStream

/-- The composite File holds the bytes of its sources. -/
structure Composes (io : BlockIO β) (content : β → Text → Option (List Byte)) (st : Storage β)
    (fileID block : Nat) (sources : List (Nat × List Byte)) : Prop where
  file : ∃ file, st.store.readStoredFile fileID = some file ∧
    file.fileSize = (joined sources).length ∧ file.fileLayout = .composite
  nonempty : sources ≠ []
  rows : ∃ now, st.store.segmentsOf fileID =
    Store.segmentRows fileID now 0 (sizedSources sources)
  stored : ∀ source ∈ sources, Stores io content st source.1 block source.2

lemma Composes.compositeIOStream (composes : Composes io content st fileID block sources) :
    CompositeStream.compositeIOStream st.store fileID (joined sources).length =
      .ok ⟨segmentsFrom 0 0 sources, (joined sources).length, 0, none, true⟩ := by
  obtain ⟨now, rows⟩ := composes.rows
  have loaded : loadSegments st.store (joined sources).length 0 ((0 : Nat) : Int)
      (Store.segmentRows fileID now 0 (sizedSources sources)) =
      .ok (segmentsFrom 0 0 sources, ((0 + (joined sources).length : Nat) : Int)) :=
    loadSegments_segmentRows (fun source member => (composes.stored source member).file) (by omega)
  rw [Nat.zero_add] at loaded
  have some : segmentsFrom 0 0 sources ≠ [] := by
    cases same : sources with
    | nil => exact absurd same composes.nonempty
    | cons source rest => exact List.cons_ne_nil _ _
  simp only [CompositeStream.compositeIOStream, loadCompositeManifest, rows, bind_ok, require_ok,
    pure_ok]
  exact ⟨_, ⟨_, loaded, (), ⟨some, rfl⟩, rfl⟩, rfl⟩

/-- `OpenFile` returns a stream over the bytes of the sources. -/
lemma Composes.opens (composes : Composes io content st fileID block sources)
    (keeps : io.Keeps content) (prompt : io.Prompt) {rounds : Nat}
    (enough : roundsFor sources ≤ rounds) {cache : FileCache}
    (sound : ∀ file raw, cache.entry file = some raw → file.fileID = fileID →
      raw.length = (joined sources).length → raw = joined sources) :
    ∃ reads, ∀ more, reads ≤ more → ∃ opened,
      openFile io (CompositeStream.stream io st rounds) CompositeStream.compositeIOStream cache more
        st fileID = some (.ok opened) ∧
      ∀ calls, ∃ last,
        ServesAll .eof (joined sources) 0 calls
          ((openedStream io (CompositeStream.stream io st rounds) st fileID).run opened calls).1
          last ∧
        (openedStream io (CompositeStream.stream io st rounds) st fileID).Ends .eof
          ((openedStream io (CompositeStream.stream io st rounds) st fileID).run opened calls).2
          ((joined sources).drop last) := by
  obtain ⟨file, found, size, composite⟩ := composes.file
  have embeds : Embeds (CompositeStream.stream io st rounds)
      (LayoutStream.stream io st.blocks (blockKey st.store fileID)
        (CompositeStream.stream io st rounds))
      LayoutStream.composite := ⟨fun _ _ => rfl, fun _ _ _ => rfl⟩
  have holds : HoldsSources io st block sources :=
    fun source member => (composes.stored source member).holdsBlocks keeps
  have streams := embeds.streams (CompositeStream.streams holds prompt enough)
  have start : CompositeAt sources block
      ⟨segmentsFrom 0 0 sources, (joined sources).length, 0, none, true⟩ 0 :=
    ⟨rfl, rfl, rfl, rfl, Nat.zero_le _, nofun⟩
  obtain ⟨reads, run⟩ := cache.load_ok (fun err => err = .eof) rfl streams ⟨_, rfl, start⟩ size
    fun raw entry => sound file raw entry (Store.readStoredFile_ok found).2
  refine ⟨reads, fun more bound => ?_⟩
  obtain ⟨opened, loaded, here⟩ := run more bound
  refine ⟨opened, ?_, fun calls => ?_⟩
  · simp only [openFile, found, composite, size, composes.compositeIOStream]
    exact loaded
  · have served := Opened.streams StreamErr.invalidOffset streams
    obtain ⟨last, serves, after⟩ := served.run here calls
    exact ⟨last, serves, served.ends after⟩

end Storage

end TgFile
