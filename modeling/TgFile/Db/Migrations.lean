import Mathlib.Data.List.Nodup
import TgFile.Go.Result

/-! # Schema migrations

The runs of `db/migrations.go` over a database that other programs leave alone.  A run plans from
the ledger, or from the schema where there is no ledger, checks the schema against the plan, and
then commits one transaction for the ledger and one for each pending migration.  The machine can
stop between any two of them.  What SQLite makes of a migration's text is a parameter, and the code
sees of a schema what its fingerprint has.  A fingerprint hides generated columns, so what a
recognised schema becomes is an assumption about the listed texts. -/

namespace TgFile.Db

open Result

/-- A migration of the binary. -/
structure MigrationFile (β : Type) where
  version : Nat
  filename : String
  checksum : String
  body : β

/-- A row of `schema_migrations`. -/
structure MigrationRecord where
  version : Nat
  filename : String
  checksum : String
  deriving DecidableEq

/-- The migrations of the binary, or some of them. -/
abbrev Files (β : Type) := List (MigrationFile β)

/-- The row that the ledger keeps. -/
def MigrationFile.record {β : Type} (file : MigrationFile β) : MigrationRecord :=
  ⟨file.version, file.filename, file.checksum⟩

/-- The embedded migrations as `listMigrationFiles` returns them: in version order, from the files
of one directory. -/
structure MigrationList (β : Type) where
  files : Files β
  sorted : files.Pairwise fun a b => a.version < b.version
  named : files.Pairwise fun a b => a.filename ≠ b.filename

/-- The rows of the ledger.  The version is the primary key. -/
structure Ledger where
  rows : List MigrationRecord
  keyed : (rows.map MigrationRecord.version).Nodup

/-- Why a database is refused. -/
inductive MigrationError
  | noMigrations
  | migrationLedgerGap (version : Nat)
  | migrationChanged (version : Nat)
  | unrecognizedLegacySchema
  | legacyProfileVersion (version : Nat)
  | schemaDrift
  | buildExpectedSchema (filename : String)
  | createMigrationLedger
  | executeMigration (filename : String)
  | recordMigration (filename : String)
  deriving DecidableEq

/-- A schema from before the ledger, and the last migration it has. -/
structure LegacySchemaProfile where
  path : String
  baselineVersion : Nat

/-- The last migration that a schema without a ledger may have. -/
def legacyBaselineMaxVersion : Nat := 5

/-- The one legacy schema. -/
def strictCurrentSchema : LegacySchemaProfile := ⟨"legacy/strict_current_schema.sql", 4⟩

/-- The legacy schemas. -/
def legacySchemaProfiles : List LegacySchemaProfile := [strictCurrentSchema]

/-- SQLite with the embedded texts of the legacy profiles.  The code sees of a schema what
`readSchemaFingerprint` reads, which is not all that SQLite keeps. -/
structure SchemaEngine (β σ : Type) where
  exec : β → σ → Option σ
  blank : σ
  fingerprint : σ → List String
  profileBody : String → β
  fingerprint_blank : fingerprint blank = []

/-- A database, with the migrations that were executed on it and the number of those that its ledger
took over from its start. -/
structure Database (β σ : Type) where
  ledger : Option Ledger
  schema : σ
  executed : Files β
  baseline : Nat

/-- What a run is to do. -/
structure MigrationPlan (β : Type) where
  files : Files β
  baseline : Files β
  current : Files β
  pending : Files β
  needsLedger : Bool

/-- How a run ends. -/
inductive Ending
  | finished
  | crashed
  | refused (err : MigrationError)
  deriving DecidableEq

variable {β σ : Type}

section
variable (engine : SchemaEngine β σ)

/-- The schema of an empty database after the migrations. -/
def SchemaEngine.build (files : Files β) : Except MigrationError σ :=
  files.foldlM (fun schema file => match engine.exec file.body schema with
    | some schema' => .ok schema'
    | none => .error (.buildExpectedSchema file.filename)) engine.blank

/-- The fingerprint that migrations build from an empty database. -/
def SchemaEngine.expectedSchemaFingerprint (files : Files β) :
    Except MigrationError (List String) :=
  (engine.build files).map engine.fingerprint

/-- The fingerprint of a legacy schema. -/
def SchemaEngine.legacyProfileFingerprint (profile : LegacySchemaProfile) :
    Except MigrationError (List String) :=
  engine.expectedSchemaFingerprint [⟨0, profile.path, "", engine.profileBody profile.path⟩]

/-- The schema is what the migrations build. -/
def SchemaEngine.validateSchemaFingerprint (schema : σ) (files : Files β) :
    Except MigrationError Unit := do
  let expected ← engine.expectedSchemaFingerprint files
  require (engine.fingerprint schema = expected) .schemaDrift

/-- The first profile of these versions with the fingerprint. -/
def SchemaEngine.findProfile (actual : List String) (eligible : Nat → Bool) :
    List LegacySchemaProfile → Except MigrationError (Option LegacySchemaProfile)
  | [] => .ok none
  | profile :: profiles =>
    if eligible profile.baselineVersion = false then
      SchemaEngine.findProfile actual eligible profiles
    else do
      let expected ← engine.legacyProfileFingerprint profile
      if actual = expected then pure (some profile)
      else SchemaEngine.findProfile actual eligible profiles

/-- The schema is what the migrations build, or the legacy one of the last. -/
def SchemaEngine.validateCurrentSchemaFingerprint (schema : σ) (files : Files β) :
    Except MigrationError Unit := do
  let expected ← engine.expectedSchemaFingerprint files
  if engine.fingerprint schema = expected then pure ()
  else match files.getLast? with
    | none => .error .schemaDrift
    | some last => do
        let profile ← engine.findProfile (engine.fingerprint schema)
          (fun version => version == last.version) legacySchemaProfiles
        require profile.isSome .schemaDrift

/-- The loop of `recognizeLegacyBaseline` over the prefixes, with the last one that matched. -/
def SchemaEngine.matchBaseline (actual : List String) :
    Files β → Files β → Files β →
      Except MigrationError (Files β)
  | _, [], baseline => .ok baseline
  | front, file :: files, baseline =>
    if legacyBaselineMaxVersion < file.version then .ok baseline
    else do
      let expected ← engine.expectedSchemaFingerprint (front ++ [file])
      SchemaEngine.matchBaseline actual (front ++ [file]) files
        (if actual = expected then front ++ [file] else baseline)

/-- The migrations up to a version. -/
def migrationPrefixThroughVersion (files : Files β) (version : Nat) :
    Except MigrationError (Files β) :=
  match files.findIdx? fun file => file.version == version with
  | some index => .ok (files.take (index + 1))
  | none => .error (.legacyProfileVersion version)

/-- The migrations that a schema without a ledger has had. -/
def SchemaEngine.recognizeLegacyBaseline (schema : σ) (files : Files β) :
    Except MigrationError (Files β) :=
  let actual := engine.fingerprint schema
  if actual = [] then .ok []
  else do
    let baseline ← engine.matchBaseline actual [] files []
    if baseline ≠ [] then pure baseline
    else do
      let profile ← engine.findProfile actual (fun _ => true) legacySchemaProfiles
      match profile with
      | some profile => migrationPrefixThroughVersion files profile.baselineVersion
      | none => .error .unrecognizedLegacySchema

end

/-- The loop of `planMigrations` over the ledger: the pending migrations, and the rows that no
migration has. -/
def comparePlan : Files β → List MigrationRecord → Bool → Files β →
    Except MigrationError (Files β × List MigrationRecord)
  | [], applied, _, pending => .ok (pending, applied)
  | file :: files, applied, foundGap, pending =>
    match applied.find? fun row => row.version == file.version with
    | none => comparePlan files applied true (pending ++ [file])
    | some row =>
      if foundGap then .error (.migrationLedgerGap file.version)
      else if row.filename ≠ file.filename ∨ row.checksum ≠ file.checksum then
        .error (.migrationChanged file.version)
      else comparePlan files (applied.filter fun row => row.version != file.version)
        foundGap pending

/-- The plan for a database, or why it is refused. -/
def SchemaEngine.planMigrations (engine : SchemaEngine β σ) (files : Files β)
    (db : Database β σ) : Except MigrationError (MigrationPlan β) :=
  match db.ledger with
  | none => do
      let baseline ← engine.recognizeLegacyBaseline db.schema files
      pure ⟨files, baseline, baseline, files.drop baseline.length, true⟩
  | some ledger => do
      let (pending, applied) ← comparePlan files ledger.rows false []
      match (applied.map MigrationRecord.version).min? with
      | some version => .error (.migrationChanged version)
      | none => pure ⟨files, [], files.take (files.length - pending.length), pending, false⟩

/-- Insert the row of a migration: the version and the file name are unique. -/
def Ledger.insert (ledger : Ledger) (file : MigrationFile β) : Except MigrationError Ledger :=
  if fresh : ∀ row ∈ ledger.rows, row.version ≠ file.version ∧ row.filename ≠ file.filename then
    .ok ⟨ledger.rows ++ [file.record], by
      rw [List.map_append, List.map_singleton, ← List.concat_eq_append]
      exact ledger.keyed.concat fun member => by
        obtain ⟨row, listed, same⟩ := List.mem_map.mp member
        exact (fresh row listed).1 same⟩
  else .error (.recordMigration file.filename)

/-- One transaction of a run. -/
inductive Transaction (β : Type)
  | initializeMigrationLedger (baseline : Files β)
  | applyMigration (file : MigrationFile β)

section
variable (engine : SchemaEngine β σ)

/-- A transaction commits, or it fails and changes nothing. -/
def SchemaEngine.commit (db : Database β σ) : Transaction β → Except MigrationError (Database β σ)
  | .initializeMigrationLedger baseline => do
      require (db.ledger = none) .createMigrationLedger
      let ledger ← baseline.foldlM Ledger.insert ⟨[], List.nodup_nil⟩
      pure { db with ledger := some ledger, baseline := baseline.length }
  | .applyMigration file =>
    match engine.exec file.body db.schema, db.ledger with
    | none, _ => .error (.executeMigration file.filename)
    | some _, none => .error (.recordMigration file.filename)
    | some schema, some ledger => do
        let ledger ← ledger.insert file
        pure { db with ledger := some ledger, schema, executed := db.executed ++ [file] }

/-- The transactions of a run, of which the machine completes at most `limit`. -/
def SchemaEngine.transact : Nat → List (Transaction β) → Database β σ → Ending × Database β σ
  | _, [], db => (.finished, db)
  | 0, _ :: _, db => (.crashed, db)
  | limit + 1, step :: steps, db =>
    match engine.commit db step with
    | .error err => (.refused err, db)
    | .ok db' => SchemaEngine.transact limit steps db'

/-- The transactions of a plan. -/
def MigrationPlan.transactions (plan : MigrationPlan β) : List (Transaction β) :=
  (if plan.needsLedger then [.initializeMigrationLedger plan.baseline] else []) ++
    plan.pending.map .applyMigration

/-- One start of the program: how it ends, and the database it leaves. -/
def SchemaEngine.migrate (files : Files β) (limit : Nat) (db : Database β σ) :
    Ending × Database β σ :=
  if files.isEmpty then (.refused .noMigrations, db)
  else match engine.planMigrations files db with
    | .error err => (.refused err, db)
    | .ok plan =>
      match engine.validateCurrentSchemaFingerprint db.schema plan.current with
      | .error err => (.refused err, db)
      | .ok _ =>
        match engine.transact limit plan.transactions db with
        | (.finished, db') =>
          if plan.pending.isEmpty then (.finished, db')
          else match engine.validateSchemaFingerprint db'.schema plan.files with
            | .error err => (.refused err, db')
            | .ok _ => (.finished, db')
        | stopped => stopped

/-- The schema is the one that the migrations build, or that of a legacy profile at its version. -/
def SchemaEngine.Current (done : Files β) (schema : σ) : Prop :=
  engine.expectedSchemaFingerprint done = .ok (engine.fingerprint schema) ∨
    ∃ last, done.getLast? = some last ∧ last.version = strictCurrentSchema.baselineVersion ∧
      engine.legacyProfileFingerprint strictCurrentSchema = .ok (engine.fingerprint schema)

/-- The ledger lists the first migrations, those after the baseline were executed, and the schema is
current. -/
structure SchemaEngine.Stands (done : Files β) (db : Database β σ) : Prop where
  ledger : ∃ ledger, db.ledger = some ledger ∧ ledger.rows = done.map MigrationFile.record
  baseline : db.baseline ≤ done.length
  executed : db.executed = done.drop db.baseline
  current : engine.Current done db.schema

/-- A database that a program with these migrations can be started on: without a ledger, empty or of
a recognised schema, or with a ledger of the first migrations. -/
inductive SchemaEngine.Ready (files : Files β) (db : Database β σ) : Prop
  | unversioned (ledger : db.ledger = none) (fresh : db.executed = [])
      (baseline : Files β)
      (recognized : engine.recognizeLegacyBaseline db.schema files = .ok baseline)
  | versioned (done rest : Files β) (split : files = done ++ rest)
      (stands : engine.Stands done db)

/-- The databases of all sequences of runs, under lists that grow at their end. -/
inductive SchemaEngine.Runs : MigrationList β → Database β σ → Prop
  | start {list : MigrationList β} {db : Database β σ} (fresh : db.executed = [])
      (ready : engine.Ready list.files db) : Runs list db
  | extend {list longer : MigrationList β} {db : Database β σ} (before : Runs list db)
      (front : list.files <+: longer.files) : Runs longer db
  | attempt {list : MigrationList β} {db : Database β σ} (before : Runs list db) (limit : Nat) :
      Runs list (engine.migrate list.files limit db).2

/-- The migration after the version of the legacy profile brings the profile's schema to the one
that the migrations up to it build. -/
def SchemaEngine.Normalizes (files : Files β) : Prop :=
  ∀ front last next rest, files = front ++ last :: next :: rest →
    last.version = strictCurrentSchema.baselineVersion → ∀ s s',
      engine.legacyProfileFingerprint strictCurrentSchema = .ok (engine.fingerprint s) →
      engine.exec next.body s = some s' →
      engine.expectedSchemaFingerprint (front ++ [last, next]) = .ok (engine.fingerprint s')

/-- A listed migration brings a schema with the fingerprint that its predecessors build to the
fingerprint that they build with it. -/
def SchemaEngine.Determined (files : Files β) : Prop :=
  ∀ front next rest, files = front ++ next :: rest → ∀ s s',
    engine.expectedSchemaFingerprint front = .ok (engine.fingerprint s) →
    engine.exec next.body s = some s' →
    engine.expectedSchemaFingerprint (front ++ [next]) = .ok (engine.fingerprint s')

end

/-- The ledger has a gap, a changed file name or checksum, or an unknown version. -/
inductive Defective (files : Files β) (rows : List MigrationRecord) : Prop
  | gap (front later rest : Files β) (file applied : MigrationFile β)
      (split : files = front ++ file :: later ++ applied :: rest)
      (missing : ∀ row ∈ rows, row.version ≠ file.version)
      (present : ∃ row ∈ rows, row.version = applied.version)
  | changed (file : MigrationFile β) (member : file ∈ files) (row : MigrationRecord)
      (listed : row ∈ rows) (version : row.version = file.version)
      (differs : row.filename ≠ file.filename ∨ row.checksum ≠ file.checksum)
  | unknown (row : MigrationRecord) (listed : row ∈ rows)
      (missing : ∀ file ∈ files, file.version ≠ row.version)

section
variable {engine : SchemaEngine β σ} {files done rest : Files β} {file : MigrationFile β}
  {s s' : σ} {db db' : Database β σ}

/-- The migrations build a schema from an empty database. -/
def SchemaEngine.Builds (engine : SchemaEngine β σ) (files : Files β) : Prop :=
  ∃ fingerprint, engine.expectedSchemaFingerprint files = .ok fingerprint

namespace SchemaEngine

variable {actual : List String} {ledger : Ledger}

lemma expected_ok {fingerprint : List String} :
    engine.expectedSchemaFingerprint files = .ok fingerprint ↔
      ∃ s, engine.build files = .ok s ∧ engine.fingerprint s = fingerprint := by
  unfold expectedSchemaFingerprint
  cases engine.build files <;> simp [Except.map]

lemma Builds.front (builds : engine.Builds (done ++ rest)) : engine.Builds done := by
  obtain ⟨_, same⟩ := builds
  obtain ⟨_, built, _⟩ := expected_ok.mp same
  unfold build at built
  rw [List.foldlM_append, bind_ok] at built
  obtain ⟨s, before, _⟩ := built
  exact ⟨_, expected_ok.mpr ⟨s, before, rfl⟩⟩

lemma validateCurrent_ok (builds : engine.Builds done) (current : engine.Current done s) :
    engine.validateCurrentSchemaFingerprint s done = .ok () := by
  obtain ⟨expected, same⟩ := builds
  unfold validateCurrentSchemaFingerprint
  rw [bind_ok]
  refine ⟨expected, same, ?_⟩
  split_ifs with equal
  · rfl
  · obtain built | ⟨last, ends, version, profile⟩ := current
    · exact absurd (Except.ok.inj (built.symm.trans same)) equal
    · have found : engine.findProfile (engine.fingerprint s) (fun v => v == last.version)
          legacySchemaProfiles = .ok (some strictCurrentSchema) := by
        simp [legacySchemaProfiles, findProfile, version, profile, bind, Except.bind, pure,
          Except.pure]
      rw [ends]
      simp only [found, bind_ok, require_ok]
      exact ⟨_, rfl, rfl⟩

/-! ## The recognised baseline -/

lemma matchBaseline_sound {front baseline result : Files β}
    (run : engine.matchBaseline actual front files baseline = .ok result) :
    result = baseline ∨ (∃ rest, front ++ files = result ++ rest) ∧
      engine.expectedSchemaFingerprint result = .ok actual := by
  induction files generalizing front baseline with
  | nil => exact .inl (Except.ok.inj run).symm
  | cons file files ih =>
    unfold matchBaseline at run
    split_ifs at run with beyond
    · exact .inl (Except.ok.inj run).symm
    · obtain ⟨expected, same, run⟩ := bind_ok.mp run
      obtain kept | ⟨⟨rest, split⟩, built⟩ := ih run
      · split_ifs at kept with equal
        · subst kept equal
          exact .inr ⟨⟨files, by simp⟩, same⟩
        · exact .inl kept
      · exact .inr ⟨⟨rest, by rw [← split]; simp⟩, built⟩

/-- A longer list still recognises a baseline. -/
lemma matchBaseline_extend {front baseline result : Files β} (rest : Files β)
    (builds : engine.Builds (front ++ (files ++ rest)))
    (run : engine.matchBaseline actual front files baseline = .ok result) :
    ∃ longer, engine.matchBaseline actual front (files ++ rest) baseline = .ok longer ∧
      (result ≠ [] → longer ≠ []) := by
  induction files generalizing front baseline with
  | cons file files ih =>
    unfold matchBaseline at run
    rw [List.cons_append]
    unfold matchBaseline
    split_ifs at run ⊢ with beyond
    · exact ⟨baseline, rfl, fun some => (Except.ok.inj run) ▸ some⟩
    · obtain ⟨expected, same, run⟩ := bind_ok.mp run
      obtain ⟨longer, again, found⟩ := ih (by simpa using builds) run
      exact ⟨longer, bind_ok.mpr ⟨expected, same, again⟩, found⟩
  | nil =>
    obtain rfl : baseline = result := Except.ok.inj run
    clear run
    induction rest generalizing front baseline with
    | nil => exact ⟨baseline, rfl, id⟩
    | cons file rest ih =>
      rw [List.nil_append] at builds ih ⊢
      unfold matchBaseline
      split_ifs with beyond
      · exact ⟨baseline, rfl, id⟩
      · have split : front ++ file :: rest = (front ++ [file]) ++ rest := by simp
        obtain ⟨expected, same⟩ := (split ▸ builds).front
        obtain ⟨longer, again, found⟩ := @ih (front ++ [file])
          (if actual = expected then front ++ [file] else baseline) (split ▸ builds)
        refine ⟨longer, bind_ok.mpr ⟨expected, same, again⟩, fun some => found ?_⟩
        split_ifs <;> simp [some]

lemma migrationPrefix_sound {version : Nat}
    (run : migrationPrefixThroughVersion files version = .ok done) :
    (∃ rest, files = done ++ rest) ∧
      ∃ last, done.getLast? = some last ∧ last.version = version := by
  unfold migrationPrefixThroughVersion at run
  split at run
  · rename_i index found
    obtain rfl := Except.ok.inj run
    obtain ⟨inside, same, _⟩ := List.findIdx?_eq_some_iff_getElem.mp found
    refine ⟨⟨_, (List.take_append_drop _ _).symm⟩, files[index], ?_, by simpa using same⟩
    rw [List.getLast?_take, if_neg (Nat.succ_ne_zero index)]
    simp [inside]
  · cases run

lemma migrationPrefix_extend {version : Nat} (rest : Files β)
    (run : migrationPrefixThroughVersion files version = .ok done) :
    ∃ longer, migrationPrefixThroughVersion (files ++ rest) version = .ok longer := by
  unfold migrationPrefixThroughVersion at run ⊢
  rw [List.findIdx?_append]
  split at run
  · rename_i index found
    rw [found]
    exact ⟨_, rfl⟩
  · cases run

lemma findProfile_any {profile : Option LegacySchemaProfile}
    (run : engine.findProfile actual (fun _ => true) legacySchemaProfiles = .ok profile) :
    profile = none ∨ profile = some strictCurrentSchema ∧
      engine.legacyProfileFingerprint strictCurrentSchema = .ok actual := by
  simp only [legacySchemaProfiles, findProfile, Bool.true_eq_false, if_false, bind_ok] at run
  obtain ⟨expected, same, run⟩ := run
  split_ifs at run with equal
  · exact .inr ⟨(Except.ok.inj run).symm, equal ▸ same⟩
  · exact .inl (Except.ok.inj run).symm

/-- A recognised baseline is the front of the list, and the schema is current for it. -/
lemma recognize_current {baseline : Files β}
    (run : engine.recognizeLegacyBaseline s files = .ok baseline) :
    (∃ rest, files = baseline ++ rest) ∧ engine.Current baseline s := by
  unfold recognizeLegacyBaseline at run
  simp only at run
  split_ifs at run with blank
  · obtain rfl := Except.ok.inj run
    refine ⟨⟨files, rfl⟩, .inl ?_⟩
    rw [blank]
    exact expected_ok.mpr ⟨engine.blank, rfl, engine.fingerprint_blank⟩
  · obtain ⟨matched, scan, run⟩ := bind_ok.mp run
    split_ifs at run with found
    · obtain rfl := Except.ok.inj run
      obtain rfl | ⟨⟨rest, split⟩, built⟩ := matchBaseline_sound scan
      · exact absurd rfl found
      · exact ⟨⟨rest, split⟩, .inl built⟩
    · obtain ⟨profile, search, run⟩ := bind_ok.mp run
      obtain rfl | ⟨rfl, same⟩ := findProfile_any search
      · cases run
      · obtain ⟨split, last, ends, version⟩ := migrationPrefix_sound run
        exact ⟨split, .inr ⟨last, ends, version, same⟩⟩

lemma recognize_extend {baseline : Files β} (builds : engine.Builds (files ++ rest))
    (run : engine.recognizeLegacyBaseline s files = .ok baseline) :
    ∃ longer, engine.recognizeLegacyBaseline s (files ++ rest) = .ok longer := by
  unfold recognizeLegacyBaseline at run ⊢
  simp only at run ⊢
  split_ifs at run ⊢ with blank
  · exact ⟨[], rfl⟩
  · obtain ⟨matched, scan, run⟩ := bind_ok.mp run
    obtain ⟨longer, again, found⟩ := matchBaseline_extend rest builds scan
    by_cases none : longer = []
    · have before : matched = [] := not_not.mp fun some => found some none
      rw [if_neg (not_not.mpr before)] at run
      obtain ⟨profile, search, run⟩ := bind_ok.mp run
      simp only [bind_ok, again, search]
      obtain rfl | ⟨rfl, same⟩ := findProfile_any search
      · cases run
      · obtain ⟨result, last⟩ := migrationPrefix_extend rest run
        refine ⟨result, longer, rfl, ?_⟩
        rw [if_neg (not_not.mpr none)]
        exact bind_ok.mpr ⟨_, rfl, last⟩
    · exact ⟨longer, bind_ok.mpr ⟨longer, again, by rw [if_pos none]; rfl⟩⟩

/-! ## The ledger -/

/-- No two migrations share a version or a file name. -/
def Distinct (files : Files β) : Prop :=
  files.Pairwise fun a b => a.version ≠ b.version ∧ a.filename ≠ b.filename

lemma comparePlan_pending {foundGap : Bool} {pending : Files β} :
    comparePlan files [] foundGap pending = .ok (pending ++ files, []) := by
  induction files generalizing foundGap pending with
  | nil => simp [comparePlan]
  | cons file files ih => simp [comparePlan, ih]

lemma comparePlan_front (distinct : Distinct (done ++ rest)) :
    comparePlan (done ++ rest) (done.map MigrationFile.record) false [] = .ok (rest, []) := by
  induction done with
  | nil => exact comparePlan_pending
  | cons file done ih =>
    rw [List.cons_append, Distinct, List.pairwise_cons] at distinct
    have others : (done.map MigrationFile.record).filter
        (fun row => row.version != file.version) = done.map MigrationFile.record := by
      refine List.filter_eq_self.mpr fun row member => ?_
      obtain ⟨other, listed, rfl⟩ := List.mem_map.mp member
      exact bne_iff_ne.mpr (Ne.symm (distinct.1 other (List.mem_append_left _ listed)).1)
    rw [List.map_cons, List.cons_append, comparePlan,
      List.find?_cons_of_pos (by exact beq_self_eq_true _)]
    simp [MigrationFile.record, others, ih distinct.2]

lemma comparePlan_gap {rows left : List MigrationRecord} {pending pending' : Files β}
    (run : comparePlan files rows true pending = .ok (pending', left)) :
    left = rows ∧ ∀ file ∈ files, ∀ row ∈ rows, row.version ≠ file.version := by
  induction files generalizing pending with
  | nil => exact ⟨(Prod.mk.inj (Except.ok.inj run)).2.symm, by simp⟩
  | cons file files ih =>
    unfold comparePlan at run
    split at run
    · rename_i missing
      obtain ⟨same, later⟩ := ih run
      refine ⟨same, List.forall_mem_cons.mpr ⟨fun row member => ?_, later⟩⟩
      simpa using List.find?_eq_none.mp missing row member
    · cases run

/-- A defect that is not at the first migration is one of the others and their rows. -/
lemma defective_tail {rows : List MigrationRecord} {head : MigrationFile β}
    {found : MigrationRecord} (distinct : Distinct (head :: files))
    (keyed : (rows.map MigrationRecord.version).Nodup) (inside : found ∈ rows)
    (version : found.version = head.version)
    (agrees : ¬(found.filename ≠ head.filename ∨ found.checksum ≠ head.checksum))
    (defective : Defective (head :: files) rows) :
    Defective files (rows.filter fun row => row.version != head.version) := by
  -- The rows of the other migrations survive the deletion of the head's row.
  have stays : ∀ row ∈ rows, row.version ≠ head.version →
      row ∈ rows.filter fun row => row.version != head.version :=
    fun row member other => List.mem_filter.mpr ⟨member, bne_iff_ne.mpr other⟩
  have apart : ∀ file ∈ files, file.version ≠ head.version := fun file member =>
    Ne.symm ((List.pairwise_cons.mp distinct).1 file member).1
  cases defective with
  | gap front later rest file applied split missing present =>
    obtain ⟨row, listed, same⟩ := present
    cases front with
    | nil =>
      obtain ⟨rfl, _⟩ := List.cons.inj split
      exact absurd version (missing found inside)
    | cons first front =>
      obtain ⟨rfl, rfl⟩ := List.cons.inj split
      refine .gap front later rest file applied rfl
        (fun row member => missing row (List.mem_filter.mp member).1)
        ⟨row, stays row listed ?_, same⟩
      exact same ▸ apart applied (by simp)
  | changed file member row listed same differ =>
    obtain rfl | member := List.mem_cons.mp member
    · obtain rfl : row = found :=
        List.inj_on_of_nodup_map keyed listed inside (same.trans version.symm)
      exact absurd differ agrees
    · exact .changed file member row (stays row listed (same ▸ apart file member)) same differ
  | unknown row listed missing =>
    obtain ⟨first, others⟩ := List.forall_mem_cons.mp missing
    exact .unknown row (stays row listed (Ne.symm first)) others

/-- A defect of the ledger leaves a row over. -/
lemma comparePlan_defective {rows left : List MigrationRecord}
    {pending pending' : Files β} (distinct : Distinct files)
    (keyed : (rows.map MigrationRecord.version).Nodup) (defective : Defective files rows)
    (run : comparePlan files rows false pending = .ok (pending', left)) : left ≠ [] := by
  induction files generalizing rows pending with
  | nil =>
    obtain rfl : rows = left := (Prod.mk.inj (Except.ok.inj run)).2
    cases defective with
    | gap front later rest file applied split => simp at split
    | changed file member => simp at member
    | unknown row listed => exact List.ne_nil_of_mem listed
  | cons head files ih =>
    unfold comparePlan at run
    split at run
    · -- After a gap no migration of the list may have a row.
      rename_i missing
      obtain ⟨rfl, later⟩ := comparePlan_gap run
      have none : ∀ file ∈ head :: files, ∀ row ∈ left, row.version ≠ file.version :=
        List.forall_mem_cons.mpr
          ⟨fun row member => by simpa using List.find?_eq_none.mp missing row member, later⟩
      cases defective with
      | gap front later rest file applied split _ present =>
        obtain ⟨row, listed, same⟩ := present
        exact absurd same (none applied (split ▸ by simp) row listed)
      | changed file member row listed version =>
        exact absurd version (none file member row listed)
      | unknown row listed => exact List.ne_nil_of_mem listed
    · rename_i found seen
      have version : found.version = head.version := by simpa using List.find?_some seen
      have inside := List.mem_of_find?_eq_some seen
      simp only [Bool.false_eq_true, if_false] at run
      split_ifs at run with differs
      exact ih (List.pairwise_cons.mp distinct).2 ((List.filter_sublist.map _).nodup keyed)
        (defective_tail distinct keyed inside version differs defective) run

lemma plan_defective (engine : SchemaEngine β σ) (stored : db.ledger = some ledger)
    (distinct : Distinct files) (defective : Defective files ledger.rows) :
    ∃ err, engine.planMigrations files db = .error err := by
  unfold planMigrations
  simp only [stored]
  cases run : comparePlan files ledger.rows false [] with
  | error err => exact ⟨err, rfl⟩
  | ok result =>
    have left := comparePlan_defective distinct ledger.keyed defective run
    obtain ⟨version, least⟩ := Option.ne_none_iff_exists'.mp (mt List.min?_eq_none_iff.mp
        (mt (List.map_eq_nil_iff (f := MigrationRecord.version)).mp left))
    exact ⟨.migrationChanged version, by simp only [bind, Except.bind, least]⟩

lemma insert_ok (rows : ledger.rows = done.map MigrationFile.record)
    (distinct : Distinct (done ++ file :: rest)) : ∃ ledger', ledger.insert file = .ok ledger' ∧
      ledger'.rows = (done ++ [file]).map MigrationFile.record := by
  have fresh : ∀ row ∈ ledger.rows, row.version ≠ file.version ∧ row.filename ≠ file.filename := by
    intro row member
    rw [rows] at member
    obtain ⟨other, listed, rfl⟩ := List.mem_map.mp member
    exact (List.pairwise_append.mp distinct).2.2 other listed file List.mem_cons_self
  refine ⟨_, dif_pos fresh, ?_⟩
  rw [List.map_append, ← rows]
  rfl

lemma insertAll_ok (front : Files β) (rows : ledger.rows = front.map MigrationFile.record)
    (distinct : Distinct (front ++ done)) :
    ∃ ledger', done.foldlM Ledger.insert ledger = .ok ledger' ∧
      ledger'.rows = (front ++ done).map MigrationFile.record := by
  induction done generalizing ledger front with
  | nil => exact ⟨ledger, rfl, by rwa [List.append_nil]⟩
  | cons file done ih =>
    obtain ⟨next, first, rows'⟩ := insert_ok rows distinct
    have split : front ++ file :: done = front ++ [file] ++ done := by simp
    rw [split] at distinct ⊢
    obtain ⟨last, others, all⟩ := ih (front ++ [file]) rows' distinct
    exact ⟨last, bind_ok.mpr ⟨next, first, others⟩, all⟩

/-! ## The transactions of a run -/

lemma commit_initialize (missing : db.ledger = none) (fresh : db.executed = [])
    (distinct : Distinct done) (current : engine.Current done db.schema) :
    ∃ db', engine.commit db (.initializeMigrationLedger done) = .ok db' ∧ engine.Stands done db' ∧
      db'.schema = db.schema := by
  have none : (⟨[], List.nodup_nil⟩ : Ledger).rows = ([] : Files β).map MigrationFile.record := rfl
  obtain ⟨ledger, run, rows⟩ := insertAll_ok [] none distinct
  refine ⟨_, bind_ok.mpr ⟨(), require_ok.mpr missing, bind_ok.mpr ⟨ledger, run, rfl⟩⟩,
    ⟨⟨ledger, rfl, rows⟩, Nat.le_refl _, ?_, current⟩, rfl⟩
  rw [List.drop_length]
  exact fresh

/-- A pending migration is executed and recorded, or its text fails. -/
lemma Stands.commit_apply (stands : engine.Stands done db)
    (distinct : Distinct (done ++ file :: rest))
    (determined : engine.Determined (done ++ file :: rest))
    (normalizes : engine.Normalizes (done ++ file :: rest)) :
    engine.commit db (.applyMigration file) = .error (.executeMigration file.filename) ∨
      ∃ db', engine.commit db (.applyMigration file) = .ok db' ∧
        engine.Stands (done ++ [file]) db' ∧
        engine.expectedSchemaFingerprint (done ++ [file]) =
          .ok (engine.fingerprint db'.schema) := by
  obtain ⟨ledger, stored, rows⟩ := stands.ledger
  unfold commit
  cases ran : engine.exec file.body db.schema with
  | none => exact .inl (by simp only [ran])
  | some schema =>
    right
    obtain ⟨ledger', run, rows'⟩ := insert_ok rows distinct
    simp only [ran, stored, run, bind, Except.bind, pure, Except.pure]
    have built : engine.expectedSchemaFingerprint (done ++ [file]) =
        .ok (engine.fingerprint schema) := by
      obtain same | ⟨last, ends, version, profile⟩ := stands.current
      · exact determined done file rest rfl db.schema schema same ran
      · obtain ⟨front, rfl⟩ := List.getLast?_eq_some_iff.mp ends
        have := normalizes front last file rest (by simp) version db.schema schema profile ran
        simpa using this
    refine ⟨_, rfl, ⟨⟨ledger', rfl, rows'⟩, ?_, ?_, .inl built⟩, built⟩
    · simpa using Nat.le_succ_of_le stands.baseline
    · rw [List.drop_append_of_le_length stands.baseline, ← stands.executed]

/-- Where the pending migrations come to from a database. -/
structure Reached (engine : SchemaEngine β σ) (files done rest : Files β)
    (db : Database β σ) (limit : Nat) (result : Ending × Database β σ) : Prop where
  stands : ∃ now later, files = now ++ later ∧ engine.Stands now result.2 ∧
    (now = done ∧ result.2 = db ∨
      engine.expectedSchemaFingerprint now = .ok (engine.fingerprint result.2.schema)) ∧
    (result.1 = .finished → later = [])
  crashed : result.1 = .crashed → limit < rest.length
  refused : ∀ err, result.1 = .refused err → ∃ file ∈ files, err = .executeMigration file.filename

lemma Stands.transact (stands : engine.Stands done db) (split : files = done ++ rest)
    (distinct : Distinct files) (determined : engine.Determined files)
    (normalizes : engine.Normalizes files) (limit : Nat) :
    engine.Reached files done rest db limit
      (engine.transact limit (rest.map .applyMigration) db) := by
  induction rest generalizing done db limit with
  | nil =>
    simp only [List.map_nil, SchemaEngine.transact]
    exact ⟨⟨done, [], split, stands, .inl ⟨rfl, rfl⟩, fun _ => rfl⟩, by simp, by simp⟩
  | cons file rest ih =>
    cases limit with
    | zero =>
      exact ⟨⟨done, file :: rest, split, stands, .inl ⟨rfl, rfl⟩, by simp [transact]⟩,
        by simp, by simp [transact]⟩
    | succ limit =>
      have front : files = done ++ [file] ++ rest := by simp [split]
      obtain failed | ⟨db', run, next, built⟩ := stands.commit_apply (split ▸ distinct)
        (split ▸ determined) (split ▸ normalizes)
      · simp only [List.map_cons, SchemaEngine.transact, failed]
        refine ⟨⟨done, file :: rest, split, stands, .inl ⟨rfl, rfl⟩, by simp⟩, by simp, ?_⟩
        rintro err ⟨⟩
        exact ⟨file, by simp [split], rfl⟩
      · simp only [List.map_cons, SchemaEngine.transact, run]
        obtain ⟨⟨now, later, parts, stands, schema, ended⟩, crashed, refused⟩ :=
          ih next front limit
        refine ⟨⟨now, later, parts, stands, .inr ?_, ended⟩, fun stop => ?_, refused⟩
        · obtain ⟨rfl, same⟩ | built := schema
          · rwa [same]
          · exact built
        · simpa using crashed stop

/-- The plan of a run starts where the database stands. -/
lemma Ready.plan (ready : engine.Ready files db) (distinct : Distinct files) :
    ∃ plan done, engine.planMigrations files db = .ok plan ∧ plan.files = files ∧
      plan.current = done ∧ files = done ++ plan.pending ∧ engine.Current done db.schema ∧
      (plan.needsLedger = false ∧ engine.Stands done db ∨
        plan.needsLedger = true ∧ plan.baseline = done ∧ db.ledger = none ∧ db.executed = []) := by
  cases ready with
  | unversioned missing fresh baseline recognized =>
    obtain ⟨⟨rest, rfl⟩, current⟩ := recognize_current recognized
    refine ⟨⟨_, baseline, baseline, rest, true⟩, baseline, ?_, rfl, rfl, rfl, current,
      .inr ⟨rfl, rfl, missing, fresh⟩⟩
    simp [planMigrations, missing, recognized, bind, Except.bind, pure, Except.pure]
  | versioned done rest split stands =>
    obtain ⟨ledger, stored, rows⟩ := stands.ledger
    subst split
    refine ⟨⟨_, [], done, rest, false⟩, done, ?_, rfl, rfl, rfl, stands.current, .inl ⟨rfl, stands⟩⟩
    simp [planMigrations, stored, rows, comparePlan_front distinct, bind, Except.bind, pure,
      Except.pure]

lemma Ready.extend (ready : engine.Ready files db) (builds : engine.Builds (files ++ rest)) :
    engine.Ready (files ++ rest) db := by
  cases ready with
  | unversioned missing fresh baseline recognized =>
    obtain ⟨longer, again⟩ := recognize_extend builds recognized
    exact .unversioned missing fresh longer again
  | versioned done later split stands =>
    exact .versioned done (later ++ rest) (by rw [split, List.append_assoc]) stands

/-- What a run on a database of the schema leaves. -/
structure Migrated (engine : SchemaEngine β σ) (files : Files β) (schema : σ)
    (limit : Nat) (result : Ending × Database β σ) : Prop where
  ready : engine.Ready files result.2
  finished : result.1 = .finished → engine.Stands files result.2 ∧
    (engine.expectedSchemaFingerprint files = .ok (engine.fingerprint result.2.schema) ∨
      engine.legacyProfileFingerprint strictCurrentSchema = .ok (engine.fingerprint schema) ∧
        ∃ last, files.getLast? = some last ∧
          last.version = strictCurrentSchema.baselineVersion)
  crashed : result.1 = .crashed → limit ≤ files.length
  refused : ∀ err, result.1 = .refused err → err = .noMigrations ∧ files = [] ∨
    ∃ file ∈ files, err = .executeMigration file.filename

/-- The ledger's own transaction first, where the plan has one. -/
lemma transact_plan {plan : MigrationPlan β} (distinct : Distinct files)
    (split : files = done ++ plan.pending) (current : engine.Current done db.schema)
    (place : plan.needsLedger = false ∧ engine.Stands done db ∨
      plan.needsLedger = true ∧ plan.baseline = done ∧ db.ledger = none ∧ db.executed = [])
    (limit : Nat) :
    limit = 0 ∧ engine.transact limit plan.transactions db = (.crashed, db) ∨
      ∃ left db', limit ≤ left + 1 ∧ engine.Stands done db' ∧ db'.schema = db.schema ∧
        engine.transact limit plan.transactions db =
          engine.transact left (plan.pending.map .applyMigration) db' := by
  obtain ⟨kept, stands⟩ | ⟨needed, rfl, missing, fresh⟩ := place
  · exact .inr ⟨limit, db, Nat.le_succ _, stands, rfl, by simp [MigrationPlan.transactions, kept]⟩
  · cases limit with
    | zero => exact .inl ⟨rfl, by simp [MigrationPlan.transactions, needed, transact]⟩
    | succ left =>
      have sub : Distinct plan.baseline :=
        (split ▸ distinct : Distinct (plan.baseline ++ plan.pending)).sublist
          (List.sublist_append_left _ _)
      obtain ⟨db', run, stands, schema⟩ := commit_initialize missing fresh sub current
      exact .inr ⟨left, db', Nat.le_refl _, stands, schema,
        by simp [MigrationPlan.transactions, needed, transact, run]⟩

lemma Ready.migrate (ready : engine.Ready files db) (distinct : Distinct files)
    (builds : engine.Builds files) (determined : engine.Determined files)
    (normalizes : engine.Normalizes files) (limit : Nat) :
    engine.Migrated files db.schema limit (engine.migrate files limit db) := by
  unfold SchemaEngine.migrate
  by_cases empty : files.isEmpty = true
  · rw [if_pos empty]
    refine ⟨ready, by simp, by simp, ?_⟩
    rintro err ⟨⟩
    exact .inl ⟨rfl, List.isEmpty_iff.mp empty⟩
  · obtain ⟨plan, done, planned, whole, front, split, current, place⟩ := ready.plan distinct
    have valid := validateCurrent_ok (split ▸ builds).front current
    simp only [if_neg empty, planned, front, valid, whole]
    obtain ⟨rfl, stopped⟩ | ⟨left, db', room, stands, schema, run⟩ :=
      transact_plan distinct split current place limit
    · rw [stopped]
      exact ⟨ready, by simp, by simp, by simp⟩
    · rw [run]
      have reached := stands.transact split distinct determined normalizes left
      generalize engine.transact left (plan.pending.map .applyMigration) db' = result at reached ⊢
      obtain ⟨⟨now, later, parts, stands', built, ended⟩, crashed, refused⟩ := reached
      obtain ⟨ending, last⟩ := result
      have ready' : engine.Ready files last := .versioned now later parts stands'
      have few : plan.pending.length ≤ files.length := by simp [split]
      cases ending with
      | crashed => exact ⟨ready', by simp, fun stop => by have := crashed stop; omega, by simp⟩
      | refused err => exact ⟨ready', by simp, by simp, fun _ same => .inr (refused _ same)⟩
      | finished =>
        obtain rfl : now = files := by rw [parts, ended rfl, List.append_nil]
        by_cases pending : plan.pending = []
        · simp only [pending, List.isEmpty_nil, if_true]
          rw [pending, List.append_nil] at split
          refine ⟨ready', fun _ => ⟨stands', ?_⟩, by simp, by simp⟩
          obtain ⟨_, rfl⟩ | built := built
          · rw [schema, split]
            refine current.imp_right ?_
            rintro ⟨last, ends, version, profile⟩
            exact ⟨profile, last, ends, version⟩
          · exact .inl built
        · have built : engine.expectedSchemaFingerprint now =
              .ok (engine.fingerprint last.schema) := by
            refine built.resolve_left fun same => pending ?_
            rw [same.1] at split
            exact List.append_right_eq_self.mp split.symm
          have valid : engine.validateSchemaFingerprint last.schema now = .ok () :=
            bind_ok.mpr ⟨_, built, require_ok.mpr rfl⟩
          simp only [List.isEmpty_eq_false_iff.mpr pending, Bool.false_eq_true, if_false, valid]
          exact ⟨ready', fun _ => ⟨stands', .inl built⟩, by simp, by simp⟩

end SchemaEngine

lemma MigrationList.distinct (list : MigrationList β) : SchemaEngine.Distinct list.files :=
  (list.sorted.imp Nat.ne_of_lt).and list.named

lemma SchemaEngine.Runs.ready {list : MigrationList β} (runs : engine.Runs list db)
    (builds : engine.Builds list.files) (determined : engine.Determined list.files)
    (normalizes : engine.Normalizes list.files) : engine.Ready list.files db := by
  induction runs with
  | start fresh ready => exact ready
  | extend before front ih =>
    obtain ⟨rest, split⟩ := front
    rw [← split] at builds determined normalizes ⊢
    refine (ih builds.front (fun front next later same => ?_)
      fun front last next later same => ?_).extend builds
    · exact determined front next (later ++ rest) (by simp [same])
    · exact normalizes front last next (later ++ rest) (by simp [same])
  | attempt before limit ih =>
    have ready := ih builds determined normalizes
    exact (ready.migrate (MigrationList.distinct _) builds determined normalizes limit).ready

/-- Across all runs, the ledger lists the first migrations, those outside the baseline were executed
once each and in order, no run is refused unless the text of a migration fails, and a run that
finishes leaves the schema of the whole list.  A defective ledger is refused without a change. -/
theorem migrations_run_exactly_once (engine : SchemaEngine β σ) (list : MigrationList β)
    (db : Database β σ) :
    (engine.Runs list db → engine.Builds list.files → engine.Determined list.files →
      engine.Normalizes list.files →
      (db.ledger = none → db.executed = []) ∧
      (∀ ledger, db.ledger = some ledger → ∃ done, done <+: list.files ∧
        ledger.rows = done.map MigrationFile.record ∧ db.baseline ≤ done.length ∧
        db.executed = done.drop db.baseline) ∧
      ∀ limit ending db', engine.migrate list.files limit db = (ending, db') →
        (ending = .crashed → limit ≤ list.files.length) ∧
        (∀ err, ending = .refused err → err = .noMigrations ∧ list.files = [] ∨
          ∃ file ∈ list.files, err = .executeMigration file.filename) ∧
        (ending = .finished →
          (∃ ledger, db'.ledger = some ledger ∧
            ledger.rows = list.files.map MigrationFile.record) ∧
          db'.executed = list.files.drop db'.baseline ∧
          ((engine.legacyProfileFingerprint strictCurrentSchema =
              .ok (engine.fingerprint db.schema) →
              ∃ file ∈ list.files, strictCurrentSchema.baselineVersion < file.version) →
            engine.expectedSchemaFingerprint list.files =
              .ok (engine.fingerprint db'.schema)))) ∧
    ∀ ledger, db.ledger = some ledger → Defective list.files ledger.rows → ∀ limit,
      ∃ err, engine.migrate list.files limit db = (.refused err, db) := by
  refine ⟨fun runs builds determined normalizes => ?_, fun ledger stored defective limit => ?_⟩
  · have ready := runs.ready builds determined normalizes
    refine ⟨fun missing => ?_, fun ledger stored => ?_, fun limit ending db' run => ?_⟩
    · cases ready with
      | unversioned _ fresh => exact fresh
      | versioned done rest split stands =>
        obtain ⟨ledger, stored, _⟩ := stands.ledger
        cases stored.symm.trans missing
    · cases ready with
      | unversioned missing => cases stored.symm.trans missing
      | versioned done rest split stands =>
        obtain ⟨ledger', stored', rows⟩ := stands.ledger
        obtain rfl := Option.some.inj (stored.symm.trans stored')
        exact ⟨done, ⟨rest, split.symm⟩, rows, stands.baseline, stands.executed⟩
    · have migrated := ready.migrate list.distinct builds determined normalizes limit
      rw [run] at migrated
      refine ⟨migrated.crashed, migrated.refused, fun done => ?_⟩
      obtain ⟨stands, schema⟩ := migrated.finished done
      refine ⟨stands.ledger, stands.executed, fun later => schema.resolve_right ?_⟩
      rintro ⟨profile, last, ends, version⟩
      obtain ⟨file, member, newer⟩ := later profile
      obtain ⟨front, split⟩ := List.getLast?_eq_some_iff.mp ends
      have sorted := list.sorted
      rw [split] at member sorted
      obtain inside | rfl := (List.mem_append.mp member).imp_right List.mem_singleton.mp
      · have := (List.pairwise_append.mp sorted).2.2 file inside last List.mem_cons_self
        omega
      · omega
  · obtain ⟨err, run⟩ := SchemaEngine.plan_defective engine stored list.distinct defective
    unfold SchemaEngine.migrate
    split_ifs
    · exact ⟨_, rfl⟩
    · simp only [run]
      exact ⟨err, rfl⟩

end

/-- The columns that `PRAGMA table_info` shows, and the generated columns that it hides. -/
structure Columns where
  shown : List String
  generated : List String

/-- An engine whose fingerprint has the columns that are shown. -/
def columns : SchemaEngine (Columns → Columns) Columns where
  exec body schema := some (body schema)
  blank := ⟨[], []⟩
  fingerprint := Columns.shown
  profileBody _ _ := ⟨["legacy"], []⟩
  fingerprint_blank := rfl

/-- The text that adds a column. -/
def addColumn (name : String) (schema : Columns) : Columns :=
  { schema with shown := name :: schema.shown }

/-- Migrations that go past the legacy schema. -/
def threeMigrations : MigrationList (Columns → Columns) where
  files := [⟨1, "0001_init.sql", "c1", addColumn "files"⟩,
    ⟨4, "0004_add.sql", "c4", addColumn "parts"⟩,
    ⟨5, "0005_normalize.sql", "c5", fun schema => { schema with shown := ["all"] }⟩]
  sorted := by decide
  named := by decide

/-- A database of the legacy profile with a generated column. -/
def legacyDatabase : Database (Columns → Columns) Columns :=
  ⟨none, ⟨["legacy"], ["size"]⟩, [], 0⟩

/-- The legacy database comes to the schema of the list although a run stops in between. -/
theorem legacyDatabase_migrated :
    (columns.migrate threeMigrations.files 3 legacyDatabase).1 = .finished ∧
      columns.expectedSchemaFingerprint threeMigrations.files =
        .ok (columns.fingerprint (columns.migrate threeMigrations.files 3
          (columns.migrate threeMigrations.files 1 legacyDatabase).2).2.schema) := by
  have runs : columns.Runs threeMigrations legacyDatabase :=
    .start rfl (.unversioned rfl rfl (threeMigrations.files.take 2) rfl)
  have normalizes : columns.Normalizes threeMigrations.files := by
    rintro (_ | ⟨first, _ | ⟨second, _ | ⟨third, front⟩⟩⟩) last next rest split version s s' _ ran
    all_goals simp only [threeMigrations, List.nil_append, List.cons_append,
      List.cons.injEq] at split
    · rw [← split.1] at version
      cases version
    · obtain ⟨rfl, rfl, rfl, rfl⟩ := split
      cases ran
      rfl
    · simp at split
    · simp at split
  have determined : columns.Determined threeMigrations.files := by
    rintro (_ | ⟨first, _ | ⟨second, _ | ⟨third, front⟩⟩⟩) next rest split s s' before ran
    all_goals simp only [threeMigrations, List.nil_append, List.cons_append,
      List.cons.injEq] at split
    · obtain ⟨rfl, rfl⟩ := split
      cases ran
      exact congrArg (Except.map (List.cons "files")) before
    · obtain ⟨rfl, rfl, rfl⟩ := split
      cases ran
      exact congrArg (Except.map (List.cons "parts")) before
    · obtain ⟨rfl, rfl, rfl, rfl⟩ := split
      cases ran
      rfl
    · simp at split
  have result := ((migrations_run_exactly_once columns threeMigrations _).1 (runs.attempt 1)
    ⟨_, rfl⟩ determined normalizes).2.2 3 .finished _ rfl
  exact ⟨rfl, (result.2.2 rfl).2.2 fun _ => ⟨_, List.mem_of_getElem? (i := 2) rfl, by decide⟩⟩

/-- The second migration copies the columns into a new table, where they are no longer generated. -/
def copyMigrations : MigrationList (Columns → Columns) where
  files := [⟨1, "0001_init.sql", "c1", addColumn "files"⟩,
    ⟨2, "0002_copy.sql", "c2", fun schema => ⟨"copy" :: schema.shown ++ schema.generated, []⟩⟩]
  sorted := by decide
  named := by decide

/-- A generated column is in no fingerprint until a migration copies it: the schema is recognised as
that of the first migration, and a run after a crash is refused as schema drift. -/
theorem generatedColumn_drifts : ∃ db, columns.Runs copyMigrations db ∧
    columns.Builds copyMigrations.files ∧ columns.Normalizes copyMigrations.files ∧
    (columns.migrate copyMigrations.files 2 db).1 = .refused .schemaDrift := by
  have runs : columns.Runs copyMigrations ⟨none, ⟨["files"], ["size"]⟩, [], 0⟩ :=
    .start rfl (.unversioned rfl rfl (copyMigrations.files.take 1) rfl)
  have normalizes : columns.Normalizes copyMigrations.files := by
    rintro (_ | ⟨first, _ | ⟨second, front⟩⟩) last next rest split version s s' _ ran
    all_goals simp only [copyMigrations, List.nil_append, List.cons_append,
      List.cons.injEq] at split
    · rw [← split.1] at version
      cases version
    · simp at split
    · simp at split
  exact ⟨_, runs.attempt 1, ⟨_, rfl⟩, normalizes, rfl⟩

end TgFile.Db
