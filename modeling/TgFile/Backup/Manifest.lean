import TgFile.Store.Model

/-! # The backup manifest

The records of `backupfmt.Manifest` that an import reads, and the conditions of
`ValidateManifest` on the Files they describe. -/

namespace TgFile.Backup

open Go

/-- `backupfmt.Part`. -/
structure Part where
  index : Nat
  size : Int
  md5 : Text
  sha256 : Text
  deriving DecidableEq, Repr

/-- `backupfmt.Segment`. -/
structure ManifestSegment where
  index : Nat
  sourceRef : Text
  size : Int
  deriving DecidableEq, Repr

/-- `backupfmt.CompletedPart`; `none` for a checksum that is not available. -/
structure ManifestCompletedPart where
  partNumber : Nat
  partSize : Int
  checksum : Option (Text × Text)
  ctime : Int
  mtime : Int
  deriving DecidableEq, Repr

/-- `backupfmt.File`. -/
structure File where
  ref : Text
  sourceFileID : Text
  layout : FileLayout
  size : Int
  ctime : Int
  mtime : Int
  parts : List Part
  segments : List ManifestSegment
  completedParts : List ManifestCompletedPart
  deriving DecidableEq, Repr

/-- `backupfmt.Directory`. -/
structure ManifestDirectory where
  path : Text
  mode : Nat
  ctime : Int
  mtime : Int
  deriving DecidableEq, Repr

/-- `backupfmt.Mapping`. -/
structure Mapping where
  path : Text
  fileRef : Text
  size : Int
  mode : Nat
  ctime : Int
  mtime : Int
  deriving DecidableEq, Repr

/-- `backupfmt.S3Object`: the path and the metadata, whose entry id is not yet known. -/
structure S3Object where
  path : Text
  metadata : S3ObjectMetadata
  deriving DecidableEq, Repr

/-- `backupfmt.WebDAVProperty`. -/
structure ManifestProperty where
  path : Text
  name : PropertyName
  valueXML : Text
  ctime : Int
  mtime : Int
  deriving DecidableEq, Repr

/-- `backupfmt.Manifest`. -/
structure Manifest where
  files : List File
  directories : List ManifestDirectory
  mappings : List Mapping
  s3Objects : List S3Object
  webDAVProperties : List ManifestProperty
  deriving DecidableEq, Repr

/-! ## What `ValidateManifest` accepts -/

/-- `validatePhysicalFile`. -/
structure File.PhysicalShape (file : File) : Prop where
  layout : file.layout = .physical
  segments : file.segments = []
  completedParts : file.completedParts = []
  indexed : file.parts.map Part.index = List.range file.parts.length
  positive : ∀ part ∈ file.parts, 0 < part.size
  total : (file.parts.map Part.size).sum = file.size

/-- `validateCompositeShape`. -/
structure File.CompositeShape (file : File) : Prop where
  layout : file.layout = .composite
  parts : file.parts = []
  nonempty : file.segments ≠ []
  indexed : file.segments.map ManifestSegment.index = List.range file.segments.length
  nonneg : ∀ segment ∈ file.segments, 0 ≤ segment.size
  total : (file.segments.map ManifestSegment.size).sum = file.size
  numbered : file.completedParts.map ManifestCompletedPart.partNumber =
    (List.range file.segments.length).map (· + 1)
  sizes : file.completedParts.map ManifestCompletedPart.partSize =
    file.segments.map ManifestSegment.size

/-- `validateCompositeReferences`: every source is a physical File of the segment's size, and no
File uses a source twice. -/
structure File.SourcesIn (file : File) (files : List File) : Prop where
  present : ∀ segment ∈ file.segments, ∃ source ∈ files, source.ref = segment.sourceRef ∧
    source.layout = .physical ∧ source.size = segment.size
  distinct : (file.segments.map ManifestSegment.sourceRef).Nodup

/-- `validatePath`, as far as the shape of the path goes. -/
def CanonicalPath (path : Text) : Prop :=
  Path.isAbs path = true ∧ Path.clean path = path ∧ path ≠ ['/']

/-- The structural conditions of `ValidateManifest`; digests, limits and texts are left out. -/
structure Manifest.Valid (manifest : Manifest) : Prop where
  refs : (manifest.files.map File.ref).Nodup
  shape : ∀ file ∈ manifest.files, file.PhysicalShape ∨ file.CompositeShape
  sources : ∀ file ∈ manifest.files, file.SourcesIn manifest.files
  directories : ∀ item ∈ manifest.directories, CanonicalPath item.path
  mappings : ∀ item ∈ manifest.mappings, CanonicalPath item.path ∧
    ∃ file ∈ manifest.files, file.ref = item.fileRef ∧ file.size = item.size
  properties : ∀ item ∈ manifest.webDAVProperties,
    (∃ directory ∈ manifest.directories, directory.path = item.path) ∨
      ∃ mapping ∈ manifest.mappings, mapping.path = item.path
  named : (manifest.webDAVProperties.map fun item => (item.path, item.name)).Nodup

/-- The manifests of the import jobs, each verified before its job is queued. -/
structure Archive where
  manifest : Text → Manifest
  valid : ∀ jobID, (manifest jobID).Valid

end TgFile.Backup
