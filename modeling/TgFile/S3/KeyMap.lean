import TgFile.S3.Keys
import TgFile.S3.ObjectTable
import TgFile.System.Attached

/-! # Objects as a map from keys

The abstract state of a bucket is a map from keys to what was stored under them.  PutObject,
CopyObject and DeleteObject update the map at one key, and `StatS3Object` reads it, except at the
keys that run through another key of the map. -/

namespace TgFile.S3

open Go Go.Path Result Store

variable {env : Env} {archive : Backup.Archive} {bucket : Bucket} {s s' : Store} {key : ObjectKey}
  {map : KeyMap}

/-- What is stored under a key; the metadata does not count the entry it belongs to. -/
structure StoredObject where
  fileID : Nat
  size : Int
  metadata : S3ObjectMetadata

/-- What the map keeps of an object. -/
def storedObject (info : S3ObjectInfo) : StoredObject :=
  ⟨info.link.fileID, info.link.fileSize, { info.metadata with entryID := 0 }⟩

/-- The objects by key. -/
abbrev KeyMap := ObjectKey → Option StoredObject

/-- A request without conditions on the keys of one bucket. -/
inductive KeyCall
  | publish (key : ObjectKey) (fileID : Nat) (size : Int) (metadata : S3ObjectMetadata)
  | copy (source destination : ObjectKey) (metadata : Option S3ObjectMetadata)
  | delete (key : ObjectKey)

namespace KeyCall

/-- The request of a call. -/
def request (bucket : Bucket) : KeyCall → S3Request
  | publish key fileID size metadata => .publish (bucket.path key) fileID size metadata none
  | copy source destination metadata =>
    .copy (bucket.path source) (bucket.path destination) metadata none none
  | delete key => .delete (bucket.path key) none

/-- The key whose object the call sets. -/
def target : KeyCall → ObjectKey
  | publish key _ _ _ => key
  | copy _ destination _ => destination
  | delete key => key

/-- What the call stores under its target.  A copy keeps the File and takes the metadata of its
source unless it brings its own; a copy onto the same key keeps the creation time. -/
def value (now : Int) (map : KeyMap) : KeyCall → Option StoredObject
  | publish _ fileID size metadata =>
    some ⟨fileID, size, { metadata with entryID := 0, ctime := now, mtime := now }⟩
  | copy source destination metadata =>
    (map source).map fun object =>
      { object with metadata :=
        if source = destination then
          match metadata with
          | none => object.metadata
          | some metadata =>
            { metadata with entryID := 0, ctime := object.metadata.ctime, mtime := now }
        else { metadata.getD object.metadata with entryID := 0, ctime := now, mtime := now } }
  | delete _ => none

end KeyCall

/-- The map after a committed call. -/
def KeyMap.apply (map : KeyMap) (now : Int) (call : KeyCall) : KeyMap :=
  Function.update map call.target (call.value now map)

/-- A key of the map is a proper front of the key. -/
def KeyMap.Blocks (map : KeyMap) (key : ObjectKey) : Prop :=
  ∃ other, (map other).isSome ∧ other.text ++ ['/'] <+: key.text

/-- No file is stored at or below the directory of a bucket. -/
def EmptyBucket (bucket : Bucket) (d : Directory) : Prop :=
  ∀ rest e, d.find (bucket.name :: rest) = some e → e.fileKind = .dir

/-- The runs from an empty bucket, with the map of what was stored.  Files may be created, deleted
and purged in between. -/
inductive KeyRun (env : Env) (archive : Backup.Archive) (bucket : Bucket) :
    System → KeyMap → Prop
  | start {σ : System} (reachable : System.Reachable env archive (fun _ _ => True) σ)
      (empty : EmptyBucket bucket σ.store.dir) : KeyRun env archive bucket σ fun _ => none
  | call {σ : System} {map : KeyMap} {s' : Store} (before : KeyRun env archive bucket σ map)
      (call : KeyCall) (committed : (call.request bucket).run env σ.clock σ.store = .ok s') :
      KeyRun env archive bucket { σ with store := s' } (map.apply σ.clock call)
  | other {σ : System} {map : KeyMap} (before : KeyRun env archive bucket σ map)
      (action : Action) (beside : action.beside = true) :
      KeyRun env archive bucket (σ.step env archive action) map

/-! ## The simulation -/

/-- The store holds the objects of the map. -/
structure Represents (env : Env) (bucket : Bucket) (s : Store) (map : KeyMap) : Prop where
  sound : Sound s
  bucketDir : ∀ e, s.dir.find [bucket.name] = some e → e.fileKind = .dir
  stored : ∀ key, (s.objectAt env (bucket.path key).text).map storedObject = map key

lemma Bucket.path_apart {other : ObjectKey} (apart : other ≠ key) :
    elements (bucket.path other).text ≠ elements (bucket.path key).text := by
  rw [Bucket.elements_path, Bucket.elements_path]
  exact fun same => apart (ObjectKey.segments_injective (List.cons.inj same).2)

lemma value_of_shows {path : Text} {fileID : Nat} {size : Int} {metadata : S3ObjectMetadata}
    (shows : Shows env s path fileID size metadata) :
    (s.objectAt env path).map storedObject =
      some ⟨fileID, size, { metadata with entryID := 0 }⟩ := by
  obtain ⟨info, found, rfl, rfl, stored⟩ := shows
  rw [found, Option.map_some, storedObject, stored]

lemma objectAt_of_looked (tree : SoundTree s.dir) (path : ObjectPath) {info : S3ObjectInfo}
    (looked : s.statS3ObjectTx env path.text = .ok (some info)) :
    s.objectAt env path.text = some info := by
  have outcome := tree.looked env path
  rw [looked] at outcome
  generalize s.statS3Object env path.text = outside at outcome
  cases outcome with
  | object found clear => exact found

/-- A committed call rewrites the object of its target. -/
lemma Represents.call_rewrites (represents : Represents env bucket s map) {now : Int}
    (call : KeyCall) (committed : (call.request bucket).run env now s = .ok s') :
    Rewrites s s' (bucket.path call.target).text ∧
      (s'.objectAt env (bucket.path call.target).text).map storedObject = call.value now map := by
  have tree := represents.sound.tree
  cases call with
  | publish key fileID size metadata =>
    obtain ⟨⟨_, entry⟩, run, rfl⟩ := map_ok.mp committed
    obtain ⟨rewrites, shows⟩ := publishS3ObjectTx_rewrites tree (bucket.path key) run
    exact ⟨rewrites, value_of_shows shows⟩
  | delete key =>
    obtain ⟨⟨_, deleted⟩, run, rfl⟩ := map_ok.mp committed
    obtain ⟨rewrites, gone⟩ := deleteS3Object_rewrites tree (bucket.path key) run
    exact ⟨rewrites, by rw [KeyCall.target, gone]; rfl⟩
  | copy source destination metadata =>
    simp only [KeyCall.request, S3Request.run, copyS3Object, bind_ok] at committed
    obtain ⟨found, looked, rest⟩ := committed
    cases found with
    | none => cases rest
    | some info =>
      have object := objectAt_of_looked tree (bucket.path source) looked
      have stored : map source = some (storedObject info) := by
        rw [← represents.stored, object, Option.map_some]
      simp only [bind_ok] at rest
      obtain ⟨_, -, destinationInfo, lookedDestination, _, -, rest⟩ := rest
      by_cases same : source = destination
      · subst same
        rw [if_pos rfl] at rest
        obtain ⟨rewrites, shows⟩ :=
          copySameS3ObjectTx_rewrites tree (bucket.path source) object rest
        refine ⟨rewrites, (value_of_shows shows).trans ?_⟩
        cases metadata with
        | none => simp [KeyCall.value, stored, storedObject]
        | some metadata => simp [KeyCall.value, stored, storedObject]
      · have apart : (bucket.path source).text ≠ (bucket.path destination).text :=
          fun text => Bucket.path_apart same (congrArg elements text)
        simp only [if_neg apart, bind_ok, pure_ok] at rest
        obtain ⟨⟨_, entry⟩, run, rfl⟩ := rest
        obtain ⟨rewrites, shows⟩ :=
          copyDifferentS3ObjectTx_rewrites tree (bucket.path destination) lookedDestination run
        refine ⟨rewrites, (value_of_shows shows).trans ?_⟩
        cases metadata with
        | none => simp [KeyCall.value, stored, storedObject, same]
        | some metadata => simp [KeyCall.value, stored, storedObject, same]

/-- A call acts on the store as on the map. -/
lemma Represents.call (represents : Represents env bucket s map) {now : Int} (call : KeyCall)
    (committed : (call.request bucket).run env now s = .ok s') :
    Represents env bucket s' (map.apply now call) := by
  obtain ⟨rewrites, value⟩ := represents.call_rewrites call committed
  refine ⟨S3Request.sound represents.sound committed, fun e found => ?_, fun key => ?_⟩
  · cases kind : e.fileKind with
    | dir => rfl
    | file =>
      have apart : [bucket.name] ≠ elements (bucket.path call.target).text := by
        rw [Bucket.elements_path]
        exact fun same => call.target.segments_ne_nil (List.cons.inj same).2.symm
      have before := (rewrites.files _ apart e kind).mp found
      rw [represents.bucketDir e before] at kind
      cases kind
  · by_cases same : key = call.target
    · rw [same, value, KeyMap.apply, Function.update_self]
    · rw [rewrites.objectAt (Bucket.path_apart same), represents.stored, KeyMap.apply,
        Function.update_of_ne same]

lemma Represents.samePlaces (represents : Represents env bucket s map) (same : SamePlaces s s') :
    Represents env bucket s' map where
  sound := same.sound represents.sound
  bucketDir := by
    rw [same.dir]
    exact represents.bucketDir
  stored key := by
    rw [objectAt_congr same.dir same.metadata, represents.stored]

lemma KeyRun.represents {σ : System} (run : KeyRun env archive bucket σ map) :
    Represents env bucket σ.store map := by
  induction run with
  | start reachable empty =>
    refine ⟨(System.protocolSound reachable).sound, empty [], fun key => ?_⟩
    rw [objectAt_of_dir fun e found => ?_]
    · rfl
    · rw [Bucket.elements_path] at found
      exact empty key.segments e found
  | call before call committed ih => exact ih.call call committed
  | other before action beside ih => exact ih.samePlaces (step_samePlaces beside)

/-! ## Keys that run through objects -/

/-- The path of a key meets a file exactly when the map has a front of the key. -/
lemma Represents.throughFile_iff (represents : Represents env bucket s map) (key : ObjectKey) :
    s.dir.ThroughFile (elements (bucket.path key).text).dropLast ↔ map.Blocks key := by
  have tree := represents.sound.tree
  rw [Bucket.elements_path, List.dropLast_cons_of_ne_nil key.segments_ne_nil]
  constructor
  · rintro ⟨front, e, inside, found, file⟩
    cases front with
    | nil =>
      rw [tree.valid.find_root_kind found] at file
      cases file
    | cons first front =>
      obtain ⟨rfl, below⟩ := List.cons_prefix_cons.mp inside
      have nonempty : front ≠ [] := by
        rintro rfl
        rw [represents.bucketDir e found] at file
        cases file
      obtain ⟨rest, split⟩ := below
      have whole : key.segments = front ++ (rest ++
        [key.segments.getLast key.segments_ne_nil]) := by
        rw [← List.append_assoc, split, List.dropLast_append_getLast]
      have proper : rest ++ [key.segments.getLast key.segments_ne_nil] ≠ [] := by simp
      obtain ⟨other, rfl⟩ := key.exists_front nonempty proper whole
      rw [← Bucket.elements_path] at found
      obtain ⟨info, object⟩ := tree.objectAt_isSome found file
      refine ⟨other, ?_, ObjectKey.front_iff.mpr ⟨_, proper, whole⟩⟩
      rw [← represents.stored, object]
      rfl
  · rintro ⟨other, present, below⟩
    obtain ⟨rest, proper, whole⟩ := ObjectKey.front_iff.mp below
    rw [← represents.stored, Option.isSome_map] at present
    obtain ⟨info, object⟩ := Option.isSome_iff_exists.mp present
    obtain ⟨e, found, file, -⟩ := objectAt_eq_some.mp object
    rw [Bucket.elements_path] at found
    refine ⟨_, e, ?_, found, file⟩
    rw [whole, List.dropLast_append_of_ne_nil proper]
    exact List.cons_prefix_cons.mpr ⟨rfl, List.prefix_append _ _⟩

/-- `StatS3Object` of a key returns what the map says. -/
def Agrees (env : Env) (bucket : Bucket) (s : Store) (map : KeyMap) (key : ObjectKey) : Prop :=
  match map key with
  | some object =>
    ∃ info, s.statS3Object env (bucket.path key).text = .ok info ∧ storedObject info = object
  | none => s.statS3Object env (bucket.path key).text = .error .notExist

lemma Represents.agrees_iff (represents : Represents env bucket s map) (key : ObjectKey) :
    Agrees env bucket s map key ↔ ¬map.Blocks key := by
  have outcome := represents.sound.tree.looked env (bucket.path key)
  rw [Agrees, ← represents.throughFile_iff, ← represents.stored]
  generalize s.statS3Object env (bucket.path key).text = outside at outcome ⊢
  generalize s.statS3ObjectTx env (bucket.path key).text = inside at outcome
  cases outcome with
  | @object info found clear => simp [found, clear]
  | missing absent clear => simp [absent, clear]
  | blocked absent file => simp [absent, file]

lemma Represents.delete_absent (represents : Represents env bucket s map)
    (absent : map key = none) (now : Int) :
    s.deleteS3Object env now (bucket.path key).text none = .ok (s, false) ↔ ¬map.Blocks key := by
  have outcome := represents.sound.tree.looked env (bucket.path key)
  rw [← represents.stored] at absent
  rw [← represents.throughFile_iff, deleteS3Object]
  generalize s.statS3Object env (bucket.path key).text = outside at outcome
  generalize s.statS3ObjectTx env (bucket.path key).text = inside at outcome ⊢
  cases outcome with
  | object found clear =>
    rw [found] at absent
    cases absent
  | missing none clear => exact iff_of_true rfl clear
  | blocked none file =>
    refine iff_of_false (fun same => ?_) (fun clear => clear file)
    cases same

/-- The same object is read before and after, if the key is blocked in both states or in none. -/
lemma stat_eq_iff {map' : KeyMap} (before : Represents env bucket s map)
    (after : Represents env bucket s' map')
    (same : s'.objectAt env (bucket.path key).text = s.objectAt env (bucket.path key).text) :
    s'.statS3Object env (bucket.path key).text = s.statS3Object env (bucket.path key).text ↔
      (map'.Blocks key ↔ map.Blocks key) := by
  have left := before.sound.tree.looked env (bucket.path key)
  have right := after.sound.tree.looked env (bucket.path key)
  rw [← before.throughFile_iff, ← after.throughFile_iff]
  generalize s.statS3Object env (bucket.path key).text = outside at left ⊢
  generalize s.statS3ObjectTx env (bucket.path key).text = inside at left
  generalize s'.statS3Object env (bucket.path key).text = outside' at right ⊢
  generalize s'.statS3ObjectTx env (bucket.path key).text = inside' at right
  cases left with
  | object found clear =>
    cases right with
    | object found' clear' =>
      rw [found, found'] at same
      simp [Option.some.inj same, clear, clear']
    | missing absent' clear' => simp [found, absent'] at same
    | blocked absent' file' => simp [found, absent'] at same
  | missing absent clear =>
    cases right with
    | object found' clear' => simp [found', absent] at same
    | missing absent' clear' => simp [clear, clear']
    | blocked absent' file' => simp [clear, file']
  | blocked absent file =>
    cases right with
    | object found' clear' => simp [found', absent] at same
    | missing absent' clear' => simp [file, clear']
    | blocked absent' file' => simp [file, file']

/-- **Objects are a map from keys, away from the keys below an object.**  In every run from an
empty bucket, `StatS3Object` agrees with the map, deleting an absent key is no error and changes
nothing, and a call on one key leaves what `StatS3Object` returns for another, each exactly where
no key of the map is a front of the key asked for. -/
theorem keyRun_refines_map {σ : System} {map : KeyMap} (run : KeyRun env archive bucket σ map) :
    (∀ key, Agrees env bucket σ.store map key ↔ ¬map.Blocks key) ∧
      (∀ key now, map key = none →
        (σ.store.deleteS3Object env now (bucket.path key).text none = .ok (σ.store, false) ↔
          ¬map.Blocks key)) ∧
      ∀ (call : KeyCall) (s' : Store),
        (call.request bucket).run env σ.clock σ.store = .ok s' → ∀ key, key ≠ call.target →
          (s'.statS3Object env (bucket.path key).text =
              σ.store.statS3Object env (bucket.path key).text ↔
            ((map.apply σ.clock call).Blocks key ↔ map.Blocks key)) := by
  have represents := run.represents
  refine ⟨represents.agrees_iff, fun key now absent => represents.delete_absent absent now,
    fun call s' committed key apart => ?_⟩
  obtain ⟨rewrites, -⟩ := represents.call_rewrites call committed
  exact stat_eq_iff represents (represents.call call committed)
    (rewrites.objectAt (Bucket.path_apart apart))

/-! ## A key below an object -/

/-- The bucket of the runs below. -/
def bucketB : Bucket := ⟨"bkt".toList, by decide⟩

/-- The key `a`. -/
def keyA : ObjectKey := ⟨"a".toList, by decide⟩

/-- The key `b`. -/
def keyB : ObjectKey := ⟨"b".toList, by decide⟩

/-- The key `c`. -/
def keyC : ObjectKey := ⟨"c".toList, by decide⟩

/-- A key below `a`. -/
def keyAB : ObjectKey := ⟨"a/b".toList, by decide⟩

/-- One empty File. -/
def oneFile : System := (System.init 0).run .plain noArchive [.createDraft 0 false, .finishCreate 0]

lemma oneFile_run : KeyRun .plain noArchive bucketB oneFile fun _ => none := by
  refine .start ((System.Reachable.init 0).run _) fun rest e found => ?_
  have empty : oneFile.store.dir.entries = [] := by decide +kernel
  have member := Tree.Schema.find_mem found
  rw [empty] at member
  cases member

/-- The map after the File was published under `a`. -/
def mapA : KeyMap := KeyMap.apply (fun _ => none) 0 (.publish keyA 1 0 noMetadata)

/-- The map after `a` was copied to `b`. -/
def mapB : KeyMap := mapA.apply 0 (.copy keyA keyB none)

/-- A key of one character has no other key as a front. -/
lemma not_blocks_of_length {map : KeyMap} (single : key.text.length = 1) : ¬map.Blocks key := by
  rintro ⟨other, -, front⟩
  have short := front.length_le
  have nonempty : other.text ≠ [] := fun empty => by
    have accepted := other.accepted
    rw [empty] at accepted
    revert accepted
    decide
  have long := List.length_pos_iff.mpr nonempty
  rw [List.length_append, List.length_singleton] at short
  omega

/-- `a` is published and copied to `b`: both are read back, deleting the absent `c` changes nothing,
and deleting `b` leaves `a` as it is. -/
theorem publishedA_refines : ∃ s' s'',
    KeyRun .plain noArchive bucketB { oneFile with store := s' } mapB ∧
    (mapB keyA).isSome ∧ Agrees .plain bucketB s' mapB keyA ∧
    (mapB keyB).isSome ∧ Agrees .plain bucketB s' mapB keyB ∧
    s'.deleteS3Object .plain 0 (bucketB.path keyC).text none = .ok (s', false) ∧
    ((KeyCall.delete keyB).request bucketB).run .plain 0 s' = .ok s'' ∧
    s''.statS3Object .plain (bucketB.path keyA).text =
      s'.statS3Object .plain (bucketB.path keyA).text := by
  have run := (oneFile_run.call (.publish keyA 1 0 noMetadata) rfl).call (.copy keyA keyB none) rfl
  obtain ⟨agrees, absent, beside⟩ := keyRun_refines_map run
  refine ⟨_, _, run, by decide +kernel, (agrees keyA).mpr (not_blocks_of_length rfl),
    by decide +kernel, (agrees keyB).mpr (not_blocks_of_length rfl),
    (absent keyC 0 (by decide +kernel)).mpr (not_blocks_of_length rfl), rfl, ?_⟩
  exact (beside (.delete keyB) _ rfl keyA (by decide)).mpr
    (iff_of_false (not_blocks_of_length rfl) (not_blocks_of_length rfl))

/-- With `a` published, `a/b` was never stored, yet it is not reported missing and cannot be
deleted. -/
theorem below_published_key :
    ∃ s', KeyRun .plain noArchive bucketB { oneFile with store := s' } mapA ∧
      mapA keyAB = none ∧
      s'.statS3Object .plain (bucketB.path keyAB).text = .error .pathComponentNotDirectory ∧
      s'.deleteS3Object .plain 0 (bucketB.path keyAB).text none =
        .error .pathComponentNotDirectory ∧
      s'.statS3Object .plain (bucketB.path keyAB).text ≠
        oneFile.store.statS3Object .plain (bucketB.path keyAB).text := by
  refine ⟨_, oneFile_run.call (.publish keyA 1 0 noMetadata) rfl, ?_⟩
  decide +kernel

end TgFile.S3
