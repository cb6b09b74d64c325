import Splitforge.Library.Fallible
import Splitforge.Library.Grouping
import Splitforge.Library.Runs
import Splitforge.Raceday.Course
import Splitforge.Storage.Connection
import Mathlib.Tactic.FinCases

/-!
# Migrations

A build carries the migrations it knows and applies those a database lacks when it opens it, each
in a transaction with its record. Builds differ in how many of the released migrations they know.
Whichever open a database, and wherever they fail, its schema is what the first so many migrations
make, and its records are theirs. `execute` stands for SQLite running a script on a schema.
-/

namespace Splitforge.Storage

open Std (ExtTreeMap)
open Splitforge.Domain Splitforge.Library
open Splitforge.Raceday (trim)

instance lawfulEqCmpObject :
    Std.LawfulEqCmp (compare : String ×ₗ String → String ×ₗ String → Ordering) where
  eq_of_compare h := compare_eq_iff_eq.mp h

/-- One forward-only schema migration. -/
structure Migration where
  version : Int
  name : String
  sql : String

/-- `SCHEMA_VERSION`. -/
def schemaVersion : Int := 9

/-- `MIGRATIONS`, by the script that goes with each name. -/
def migrations (script : String → String) : List Migration :=
  [⟨1, "initial_raw_read_journal", script "initial_raw_read_journal"⟩,
    ⟨2, "event_configuration", script "event_configuration"⟩,
    ⟨3, "results_and_revisions", script "results_and_revisions"⟩,
    ⟨4, "device_settings", script "device_settings"⟩,
    ⟨5, "clock_steps", script "clock_steps"⟩,
    ⟨6, "manual_entries", script "manual_entries"⟩,
    ⟨7, "reader_gap_events", script "reader_gap_events"⟩,
    ⟨8, "sidecar_checkpoints", script "sidecar_checkpoints"⟩,
    ⟨9, "audit_os_identity", script "audit_os_identity"⟩]

/-- A row of `sqlite_master`. -/
structure SchemaRow where
  kind : String
  name : String
  sql : Option String
deriving DecidableEq

/-- A row of `schema_migrations`. -/
structure MigrationRow where
  version : Int
  name : String
  appliedAtUs : Int64
deriving DecidableEq

/-- A database file, by its schema and the migrations recorded in it. -/
structure EventFile where
  schema : List SchemaRow
  applied : List MigrationRow
deriving DecidableEq

/-- A build: its `SCHEMA_VERSION` and its `MIGRATIONS`. -/
structure Build where
  schemaVersion : Int
  migrations : List Migration

/-- Why a database was not opened. -/
inductive SchemaError where
  | storage (error : StorageError)
  | tooNew (found supported : Int)
  | notMigrated (found expected : Int)
deriving DecidableEq

/-- What one open finds: the clock, whether opening and its pragmas fail, and what fails in the
transaction of a migration, by its version. -/
structure OpenEnv where
  now : OffsetDateTime
  opening : Option StorageError
  migrating : Int → Option StorageError

/-- Whether a schema has the table the migrations are recorded in. -/
def recordsMigrations (schema : List SchemaRow) : Bool :=
  schema.any fun row => row.kind = "table" && row.name = "schema_migrations"

/-- `schema_version`, where the table is there. -/
def highestVersion (applied : List MigrationRow) : Int :=
  ((applied.map (·.version)).max?).getD 0

/-- The version `migrate` and `schema_differences` take a file to be at. -/
def EventFile.version (file : EventFile) : Int :=
  if recordsMigrations file.schema then highestVersion file.applied else 0

section Opening

variable (execute : String → List SchemaRow → Except StorageError (List SchemaRow))

/-- The transaction of one migration: its script, and the record of it. -/
def migrateOne (env : OpenEnv) (file : EventFile) (migration : Migration) :
    Except StorageError EventFile :=
  match env.migrating migration.version with
  | some error => .error error
  | none => do
      let schema ← execute migration.sql file.schema
      let appliedAtUs ← toMicros env.now
      if recordsMigrations schema then
        if file.applied.any fun row => row.version = migration.version then
          .error (.sqlite "UNIQUE constraint failed: schema_migrations.version")
        else .ok ⟨schema, file.applied ++ [⟨migration.version, migration.name, appliedAtUs⟩]⟩
      else .error (.sqlite "no such table: schema_migrations")

/-- The loop of `migrate`. What was committed before a failure stays. -/
def migrateEach (env : OpenEnv) : EventFile → List Migration →
    Except SchemaError Unit × EventFile
  | file, [] => (.ok (), file)
  | file, migration :: migrations =>
      match migrateOne execute env file migration with
      | .error error => (.error (.storage error), file)
      | .ok file => migrateEach env file migrations

/-- What `migrate` finds a file to lack, before its first transaction. -/
def lacking (build : Build) (file : EventFile) : Except SchemaError (List Migration) :=
  if build.schemaVersion < file.version then
    .error (.tooNew file.version build.schemaVersion)
  else .ok (build.migrations.filter (file.version < ·.version))

/-- `migrate`: applies the migrations a file lacks, in order. -/
def migrate (build : Build) (env : OpenEnv) (file : EventFile) :
    Except SchemaError Unit × EventFile :=
  match lacking build file with
  | .error error => (.error error, file)
  | .ok migrations => migrateEach execute env file migrations

/-- `open`. -/
def openFile (build : Build) (env : OpenEnv) (file : EventFile) :
    Except SchemaError Unit × EventFile :=
  match env.opening with
  | some error => (.error (.storage error), file)
  | none => migrate execute build env file

/-- A build opening the file: its number, and what it has still to apply, until a migration of
its fails. -/
structure Opener where
  number : Nat
  pending : Option (List Migration)

/-- The file, and the builds that are opening it. -/
structure Opens where
  file : EventFile
  openers : List Opener

/-- The build that knows the first so many released migrations. -/
def released (releases : List Migration) (number : Nat) : Build :=
  ⟨number, releases.take number⟩

/-- What the builds do: one more looks at the file, or one runs its next transaction. -/
inductive OpenEvent (releases : List Migration) where
  | arrive (number : Fin (releases.length + 1))
  | advance (position : Nat) (env : OpenEnv)

/-- One build's transactions run between those of the others. -/
def openStep {releases : List Migration} (opens : Opens) : OpenEvent releases → Opens
  | .arrive number =>
      match lacking (released releases number) opens.file with
      | .error _ => opens
      | .ok migrations => { opens with openers := opens.openers ++ [⟨number, some migrations⟩] }
  | .advance position env =>
      match opens.openers[position]? with
      | some ⟨number, some (migration :: migrations)⟩ =>
          match migrateOne execute env opens.file migration with
          | .error _ => { opens with openers := opens.openers.set position ⟨number, none⟩ }
          | .ok file => ⟨file, opens.openers.set position ⟨number, some migrations⟩⟩
      | _ => opens

/-- A new file, after what some builds did. -/
def opened {releases : List Migration} (events : List (OpenEvent releases)) : Opens :=
  run (openStep execute) ⟨⟨[], []⟩, []⟩ events

/-- `open_read_only`, which only looks at the file. -/
def openReadOnly (build : Build) (opening : Option StorageError) (file : EventFile) :
    Except SchemaError Unit :=
  match opening with
  | some error => .error (.storage error)
  | none =>
      if recordsMigrations file.schema then
        let found := highestVersion file.applied
        if build.schemaVersion < found then .error (.tooNew found build.schemaVersion)
        else if found < build.schemaVersion then
          .error (.notMigrated found build.schemaVersion)
        else .ok ()
      else .error (.storage (.sqlite "no such table: schema_migrations"))

/-- Whether SQLite made an object itself: `LIKE 'sqlite\_%'`, which does not tell case. -/
def madeBySqlite (name : String) : Bool :=
  (name.toList.take 7).map Char.toLower = "sqlite_".toList

/-- `schema_objects`: the objects SQLite did not make itself, by kind and name. -/
def schemaObjects (schema : List SchemaRow) : ExtTreeMap (String ×ₗ String) String :=
  schema.foldl (fun objects row =>
    match row.sql with
    | some sql =>
        if madeBySqlite row.name then objects
        else objects.insert (toLex (row.kind, row.name)) (trim sql)
    | none => objects) ∅

/-- The schema some migrations make of an empty database. -/
def scripted (migrations : List Migration) : Except StorageError (List SchemaRow) :=
  migrations.foldlM (fun schema migration => execute migration.sql schema) []

/-- An object as a finding names it. -/
def objectText (object : String ×ₗ String) : String :=
  (ofLex object).1 ++ " " ++ (ofLex object).2

/-- The two loops of `schema_differences`. -/
def differences (expected actual : ExtTreeMap (String ×ₗ String) String) : List String :=
  (expected.toList.filterMap fun entry =>
    match actual[entry.1]? with
    | none => some (objectText entry.1 ++ " is missing")
    | some found =>
        if found ≠ entry.2 then
          some (objectText entry.1 ++ " is not defined the way its migration defines it")
        else none) ++
  actual.keys.filterMap fun object =>
    if expected.contains object then none
    else some (objectText object ++ " is not one the migrations create")

/-- `schema_differences`: how a file's schema differs from the one the migrations make at its
version. -/
def schemaDifferences (build : Build) (file : EventFile) : Except StorageError (List String) := do
  let expected ← scripted execute (build.migrations.filter (·.version ≤ file.version))
  pure (differences (schemaObjects expected) (schemaObjects file.schema))

end Opening

/-! ## Releases -/

/-- Released migrations are numbered from one. -/
def Numbered (releases : List Migration) : Prop :=
  ∀ index (h : index < releases.length), (releases.get ⟨index, h⟩).version = (index : Int) + 1

section Releases

variable {execute : String → List SchemaRow → Except StorageError (List SchemaRow)}
variable {releases : List Migration} {count number : Nat} {file : EventFile} {env : OpenEnv}

/-- The first script makes the table migrations are recorded in, and none drops it. -/
def Recording (execute : String → List SchemaRow → Except StorageError (List SchemaRow))
    (releases : List Migration) : Prop :=
  ∀ count schema, 0 < count → scripted execute (releases.take count) = .ok schema →
    recordsMigrations schema = true

/-- A file whose schema and records are those of the first so many migrations. -/
structure Migrated (execute : String → List SchemaRow → Except StorageError (List SchemaRow))
    (releases : List Migration) (count : Nat) (file : EventFile) : Prop where
  schema : scripted execute (releases.take count) = .ok file.schema
  applied : file.applied.map (fun row => (row.version, row.name)) =
    (releases.take count).map fun migration => (migration.version, migration.name)

/-- A migration is among the first so many exactly when its version says so. -/
theorem version_le_iff (hnumbered : Numbered releases) {migration : Migration}
    (hmem : migration ∈ releases) (count : Nat) :
    migration.version ≤ count ↔ migration ∈ releases.take count := by
  obtain ⟨index, hindex, rfl⟩ := List.mem_iff_getElem.mp hmem
  have hversion : releases[index].version = (index : Int) + 1 := hnumbered index hindex
  rw [hversion]
  constructor
  · intro hle
    refine List.mem_take_iff_getElem.mpr ⟨index, by omega, rfl⟩
  · intro htake
    obtain ⟨other, hother, heq⟩ := List.mem_take_iff_getElem.mp htake
    have hsame : releases[other].version = (other : Int) + 1 := hnumbered other (by omega)
    rw [heq, hversion] at hsame
    omega

/-- The versions among the first so many migrations. -/
theorem versions_take (hnumbered : Numbered releases) (hcount : count ≤ releases.length) :
    (releases.take count).map (·.version) =
      (List.range count).map fun index : Nat => (index : Int) + 1 := by
  refine List.ext_getElem (by simp; omega) fun index hfirst hsecond => ?_
  rw [List.getElem_map, List.getElem_map, List.getElem_range, List.getElem_take]
  rw [List.length_map, List.length_range] at hsecond
  exact hnumbered index (by omega)

/-- The highest version recorded is that of the last migration that was applied. -/
theorem Migrated.highest_eq (h : Migrated execute releases count file)
    (hnumbered : Numbered releases) (hcount : count ≤ releases.length) :
    highestVersion file.applied = count := by
  have hversions : file.applied.map (·.version) =
      (List.range count).map fun index : Nat => (index : Int) + 1 := by
    have happlied := congrArg (List.map Prod.fst) h.applied
    rw [List.map_map, List.map_map] at happlied
    exact happlied.trans (versions_take hnumbered hcount)
  rw [highestVersion, hversions]
  rcases Nat.eq_zero_or_pos count with rfl | hpositive
  · rfl
  · have hmax : ((List.range count).map fun index : Nat => (index : Int) + 1).max? =
        some (count : Int) := by
      refine List.max?_eq_some_iff.mpr ⟨List.mem_map.mpr ⟨count - 1, ?_, by omega⟩, ?_⟩
      · rw [List.mem_range]
        omega
      · intro version hversion
        obtain ⟨index, hindex, rfl⟩ := List.mem_map.mp hversion
        rw [List.mem_range] at hindex
        omega
    rw [hmax, Option.getD_some]

/-- A file is at the version of the last migration that was applied to it. -/
theorem Migrated.version_eq (h : Migrated execute releases count file)
    (hnumbered : Numbered releases) (hrecording : Recording execute releases)
    (hcount : count ≤ releases.length) : file.version = count := by
  rw [EventFile.version]
  rcases Nat.eq_zero_or_pos count with rfl | hpositive
  · have hempty : [] = file.schema := Except.ok.inj h.schema
    rw [← hempty]
    rfl
  · rw [if_pos (hrecording count _ hpositive h.schema), h.highest_eq hnumbered hcount]

/-- What a file lacks of the first so many migrations is what follows those it has. -/
theorem filter_newer (hnumbered : Numbered releases) (count number : Nat) :
    (releases.take number).filter (fun migration => (count : Int) < migration.version) =
      (releases.take number).drop count := by
  have hsplit := List.take_append_drop count (releases.take number)
  conv => lhs; rw [← hsplit]
  have hin : ∀ migration ∈ releases.take number, migration ∈ releases :=
    fun migration hmem => List.mem_of_mem_take hmem
  rw [List.filter_append, List.filter_eq_nil_iff.mpr, List.nil_append, List.filter_eq_self]
  · intro migration hmem
    obtain ⟨index, hindex, rfl⟩ := List.mem_drop_iff_getElem.mp hmem
    rw [List.getElem_take]
    have hversion := hnumbered (count + index) (by simp at hindex; omega)
    rw [decide_eq_true_eq]
    rw [List.get_eq_getElem] at hversion
    dsimp only at hversion
    omega
  · intro migration hmem
    have hle := (version_le_iff hnumbered (hin _ (List.mem_of_mem_take hmem)) count).mpr ?_
    · simpa using hle
    · rw [List.take_take] at hmem
      exact (List.take_subset_take_left releases (min_le_left count number)) hmem

/-- What a build finds lacking in a file that the first so many migrations made. -/
theorem Migrated.lacking_eq (h : Migrated execute releases count file)
    (hnumbered : Numbered releases) (hrecording : Recording execute releases)
    (hcount : count ≤ releases.length) (number : Nat) :
    lacking (released releases number) file =
      if number < count then .error (.tooNew count number)
      else .ok ((releases.take number).drop count) := by
  rw [lacking, h.version_eq hnumbered hrecording hcount]
  by_cases hless : number < count
  · have hversions : (released releases number).schemaVersion < (count : Int) := by
      simp [released, hless]
    rw [if_pos hversions, if_pos hless]
    rfl
  · have hversions : ¬ (released releases number).schemaVersion < (count : Int) := by
      simp [released, Nat.le_of_not_lt hless]
    rw [if_neg hversions, if_neg hless, released, filter_newer hnumbered]

/-- Running one script more. -/
theorem scripted_succ (hcount : count < releases.length) {schema next : List SchemaRow}
    (hscripted : scripted execute (releases.take count) = .ok schema)
    (hnext : execute (releases[count]).sql schema = .ok next) :
    scripted execute (releases.take (count + 1)) = .ok next := by
  rw [scripted, List.take_succ_eq_append_getElem hcount, List.foldlM_append]
  rw [scripted] at hscripted
  rw [hscripted]
  show (execute (releases[count]).sql schema).bind pure = _
  rw [hnext]
  rfl

/-- A migration that was applied is the first the file lacks, whoever applied those before it. -/
theorem migrate_one (h : Migrated execute releases count file) (hnumbered : Numbered releases)
    {index : Nat} (hindex : index < releases.length) (hle : index ≤ count)
    (hcount : count ≤ releases.length) {next : EventFile}
    (hdone : migrateOne execute env file releases[index] = .ok next) :
    index = count ∧ Migrated execute releases (count + 1) next ∧
      file.applied <+: next.applied := by
  rw [migrateOne] at hdone
  split at hdone
  · cases hdone
  · obtain ⟨schema, hschema, hdone⟩ := exists_of_bind hdone
    obtain ⟨appliedAtUs, _, hdone⟩ := exists_of_bind hdone
    split at hdone
    · split at hdone
      · cases hdone
      · rename_i hfresh
        cases hdone
        have hversion : (releases[index]).version = (index : Int) + 1 := hnumbered index hindex
        have hindexed : index = count := by
          by_contra hne
          have hmem : (releases[index].version, releases[index].name) ∈
              file.applied.map (fun row => (row.version, row.name)) := by
            rw [h.applied]
            exact List.mem_map.mpr
              ⟨_, List.mem_take_iff_getElem.mpr ⟨index, by omega, rfl⟩, rfl⟩
          obtain ⟨row, hrow, hsame⟩ := List.mem_map.mp hmem
          exact hfresh (List.any_eq_true.mpr
            ⟨row, hrow, decide_eq_true (congrArg Prod.fst hsame)⟩)
        subst hindexed
        refine ⟨rfl, ⟨scripted_succ hindex h.schema hschema, ?_⟩, List.prefix_append _ _⟩
        rw [List.map_append, h.applied, List.take_succ_eq_append_getElem hindex, List.map_append]
        rfl
    · cases hdone

/-- What the transactions of one build's migrations leave, wherever they stop. -/
theorem migrate_each (hnumbered : Numbered releases) (hnumber : number ≤ releases.length)
    (remaining : Nat) (h : Migrated execute releases count file)
    (hremaining : count + remaining = number) :
    ∃ reached ≤ number, count ≤ reached ∧
      Migrated execute releases reached
        (migrateEach execute env file ((releases.take number).drop count)).2 ∧
      file.applied <+:
        (migrateEach execute env file ((releases.take number).drop count)).2.applied ∧
      ((migrateEach execute env file ((releases.take number).drop count)).1 = .ok () ↔
        reached = number) := by
  induction remaining generalizing count file with
  | zero =>
      rw [List.drop_eq_nil_of_le (by rw [List.length_take]; omega), migrateEach]
      exact ⟨count, by omega, le_refl _, h, List.prefix_rfl, by simp; omega⟩
  | succ remaining ih =>
      have hcount : count < releases.length := by omega
      have hnext : count < (releases.take number).length := by
        rw [List.length_take]
        omega
      rw [List.drop_eq_getElem_cons hnext, List.getElem_take, migrateEach]
      cases hone : migrateOne execute env file releases[count] with
      | error error =>
          exact ⟨count, by omega, le_refl _, h, List.prefix_rfl, by simp; omega⟩
      | ok next =>
          obtain ⟨_, hmigrated, happlied⟩ :=
            migrate_one h hnumbered hcount (le_refl _) (le_of_lt hcount) hone
          obtain ⟨reached, hreached, hle, hfile, hrest, hok⟩ := ih hmigrated (by omega)
          exact ⟨reached, hreached, by omega, hfile, happlied.trans hrest, hok⟩

/-- What one build has still to apply follows what some build had applied when it looked. -/
def Behind (releases : List Migration) (count : Nat) (opener : Opener) : Prop :=
  opener.number ≤ releases.length ∧
    ∀ migrations, opener.pending = some migrations →
      ∃ index ≤ count, migrations = (releases.take opener.number).drop index

/-- The file is what the first so many migrations make, and every build is behind it. -/
structure Opening (execute : String → List SchemaRow → Except StorageError (List SchemaRow))
    (releases : List Migration) (count : Nat) (opens : Opens) : Prop where
  known : count ≤ releases.length
  migrated : Migrated execute releases count opens.file
  behind : ∀ opener ∈ opens.openers, Behind releases count opener

/-- A build is behind what comes after what it is behind. -/
theorem Behind.later {opener : Opener} {later : Nat} (h : Behind releases count opener)
    (hlater : count ≤ later) : Behind releases later opener := by
  obtain ⟨hnumber, hpending⟩ := h
  refine ⟨hnumber, fun migrations hmigrations => ?_⟩
  obtain ⟨index, hindex, heq⟩ := hpending migrations hmigrations
  exact ⟨index, by omega, heq⟩

/-- One thing a build does leaves the file at the same migration or at the next. -/
theorem opening_step (hnumbered : Numbered releases) (hrecording : Recording execute releases)
    {opens : Opens} (h : Opening execute releases count opens) (event : OpenEvent releases) :
    ∃ later, count ≤ later ∧ Opening execute releases later (openStep execute opens event) ∧
      opens.file.applied <+: (openStep execute opens event).file.applied := by
  cases event with
  | arrive number =>
      have hnumber : (number : Nat) ≤ releases.length := Nat.le_of_lt_succ number.isLt
      rw [openStep, h.migrated.lacking_eq hnumbered hrecording h.known]
      by_cases hless : (number : Nat) < count
      · rw [if_pos hless]
        exact ⟨count, le_refl _, h, List.prefix_rfl⟩
      · rw [if_neg hless]
        refine ⟨count, le_refl _, ⟨h.known, h.migrated, fun opener hopener => ?_⟩,
          List.prefix_rfl⟩
        rcases List.mem_append.mp hopener with hopener | hopener
        · exact h.behind opener hopener
        · rw [List.mem_singleton] at hopener
          subst hopener
          refine ⟨hnumber, fun migrations hmigrations => ⟨count, le_refl _, ?_⟩⟩
          exact (Option.some.inj hmigrations).symm
  | advance position env =>
      rw [openStep]
      split
      · rename_i number migration migrations hopener
        have hmem := List.mem_of_getElem? hopener
        obtain ⟨hnumber, hpending⟩ := h.behind _ hmem
        dsimp only at hnumber hpending
        obtain ⟨index, hindex, heq⟩ := hpending _ rfl
        have hinside : index < (releases.take number).length := by
          by_contra hout
          rw [List.drop_eq_nil_of_le (by omega)] at heq
          cases heq
        rw [List.drop_eq_getElem_cons hinside, List.getElem_take] at heq
        obtain ⟨rfl, rfl⟩ := List.cons.inj heq
        rw [List.length_take] at hinside
        cases hone : migrateOne execute env opens.file releases[index] with
        | error error =>
            refine ⟨count, le_refl _, ⟨h.known, h.migrated, fun opener hset => ?_⟩,
              List.prefix_rfl⟩
            rcases List.mem_or_eq_of_mem_set hset with hset | rfl
            · exact h.behind opener hset
            · exact ⟨hnumber, fun _ hnone => by cases hnone⟩
        | ok next =>
            obtain ⟨rfl, hmigrated, happlied⟩ :=
              migrate_one h.migrated hnumbered (by omega) hindex h.known hone
            refine ⟨index + 1, by omega, ⟨by omega, hmigrated, fun opener hset => ?_⟩, happlied⟩
            rcases List.mem_or_eq_of_mem_set hset with hset | rfl
            · exact (h.behind opener hset).later (by omega)
            · refine ⟨hnumber, fun migrations hmigrations => ⟨index + 1, le_refl _, ?_⟩⟩
              exact (Option.some.inj hmigrations).symm
      · exact ⟨count, le_refl _, h, List.prefix_rfl⟩

/-- Whatever builds do goes forward. -/
theorem opening_run (hnumbered : Numbered releases) (hrecording : Recording execute releases)
    {opens : Opens} (h : Opening execute releases count opens)
    (events : List (OpenEvent releases)) :
    ∃ later, count ≤ later ∧ Opening execute releases later (run (openStep execute) opens events) ∧
      opens.file.applied <+: (run (openStep execute) opens events).file.applied := by
  induction events generalizing count opens with
  | nil => exact ⟨count, le_refl _, h, List.prefix_rfl⟩
  | cons event events ih =>
      obtain ⟨next, hnext, hstep, happlied⟩ := opening_step hnumbered hrecording h event
      obtain ⟨later, hlater, hrun, hrest⟩ := ih hstep
      exact ⟨later, by omega, hrun, happlied.trans hrest⟩

/-- Whatever builds did to a new file, some of the migrations made it. -/
theorem opening_opened (hnumbered : Numbered releases) (hrecording : Recording execute releases)
    (events : List (OpenEvent releases)) :
    ∃ count, Opening execute releases count (opened execute events) := by
  have hstart : Opening execute releases 0 ⟨⟨[], []⟩, []⟩ :=
    ⟨Nat.zero_le _, ⟨rfl, rfl⟩, fun _ hopener => absurd hopener List.not_mem_nil⟩
  obtain ⟨count, _, hopens, _⟩ := opening_run hnumbered hrecording hstart events
  exact ⟨count, hopens⟩

/-- A build reads only the files its own migrations made. -/
theorem Migrated.read_only_iff (h : Migrated execute releases count file)
    (hnumbered : Numbered releases) (hrecording : Recording execute releases)
    (hcount : count ≤ releases.length) (number : Nat) :
    openReadOnly (released releases number) none file = .ok () ↔ 0 < count ∧ number = count := by
  rw [openReadOnly]
  rcases Nat.eq_zero_or_pos count with rfl | hpositive
  · have hempty : [] = file.schema := Except.ok.inj h.schema
    rw [← hempty]
    simp [recordsMigrations]
  · have htable := hrecording count _ hpositive h.schema
    have hversion := h.version_eq hnumbered hrecording hcount
    rw [EventFile.version, if_pos htable] at hversion
    rw [if_pos htable, hversion]
    show (if ((number : Nat) : Int) < (count : Int) then
        (Except.error (SchemaError.tooNew count number) : Except SchemaError Unit)
      else if (count : Int) < (number : Nat) then .error (.notMigrated count number)
      else .ok ()) = .ok () ↔ _
    by_cases hnew : number < count
    · rw [if_pos (by omega)]
      simp
      omega
    · rw [if_neg (by omega)]
      by_cases hold : count < number
      · rw [if_pos (by omega)]
        simp
        omega
      · rw [if_neg (by omega)]
        simp
        omega

/-- This build's migrations are numbered as those of every release. -/
theorem numbered_migrations (script : String → String) : Numbered (migrations script) := by
  intro index hindex
  have hall : ∀ index : Fin 9, ((migrations script).get index).version = (index : Int) + 1 := by
    intro index
    fin_cases index <;> rfl
  exact hall ⟨index, hindex⟩

/-- This build is that of the last release. -/
theorem released_migrations (script : String → String) :
    released (migrations script) 9 = ⟨schemaVersion, migrations script⟩ := rfl

/-- What SQLite does with a script that creates one table. -/
def createTable (sql : String) (schema : List SchemaRow) :
    Except StorageError (List SchemaRow) :=
  let name := String.ofList ((sql.toList.drop "CREATE TABLE ".length).takeWhile (· ≠ ' '))
  if schema.any fun row => row.name = name then
    .error (.sqlite ("table " ++ name ++ " already exists"))
  else .ok (schema ++ [⟨"table", name, some sql⟩])

/-- Migrations that each create one table. -/
def oneTableEach : List Migration :=
  migrations fun name =>
    if name = "initial_raw_read_journal" then
      "CREATE TABLE schema_migrations (version INTEGER PRIMARY KEY, name TEXT NOT NULL)"
    else "CREATE TABLE " ++ name ++ " (id TEXT PRIMARY KEY)"

/-- The first of them creates the table that migrations are recorded in. -/
theorem recording_one_table_each : Recording createTable oneTableEach := by
  intro count schema hpositive hscripted
  have hall : ∀ count : Fin 10, 0 < count.val →
      ((scripted createTable (oneTableEach.take count)).toOption.all recordsMigrations) = true := by
    decide +kernel
  have htake : oneTableEach.take count = oneTableEach.take (min count 9) := by
    rw [show (9 : Nat) = oneTableEach.length from rfl, List.take_eq_take_min]
  rw [htake] at hscripted
  have hone := hall ⟨min count 9, by omega⟩ (by show 0 < min count 9; omega)
  rw [hscripted] at hone
  exact hone

/-- Nothing fails, an hour into the epoch. -/
def noTrouble : OpenEnv :=
  ⟨⟨3600000000000, by decide, by decide⟩, none, fun _ => none⟩

/-- A build of the third release and one of the ninth look at a new file, and take turns. -/
def takingTurns : List (OpenEvent oneTableEach) :=
  [.arrive 3, .arrive 9, .advance 0 noTrouble, .advance 1 noTrouble, .advance 0 noTrouble,
    .advance 0 noTrouble]

/-- Builds of any releases may open a file at once, each transaction of theirs falling between
any of the others', and any of them may fail. The file is always at one migration: its schema is
what the scripts up to there make, and its records are theirs, once each. It only goes forward,
no build has opened a file that it is ahead of, and only the build that made it reads it. -/
theorem openers_agree (hnumbered : Numbered releases) (hrecording : Recording execute releases)
    (first second : List (OpenEvent releases)) :
    ∃ count later, count ≤ later ∧ later ≤ releases.length ∧
      Migrated execute releases count (opened execute first).file ∧
      Migrated execute releases later (opened execute (first ++ second)).file ∧
      (opened execute first).file.applied <+: (opened execute (first ++ second)).file.applied ∧
      (∀ opener ∈ (opened execute first).openers,
        opener.pending = some [] → opener.number ≤ count) ∧
      ∀ number, openReadOnly (released releases number) none (opened execute first).file = .ok () ↔
        0 < count ∧ number = count := by
  obtain ⟨count, hfirst⟩ := opening_opened hnumbered hrecording first
  obtain ⟨later, hlater, hsecond, happlied⟩ := opening_run hnumbered hrecording hfirst second
  rw [opened, ← run_append] at hsecond happlied
  refine ⟨count, later, hlater, hsecond.known, hfirst.migrated, hsecond.migrated, happlied,
    fun opener hopener hdone => ?_,
    hfirst.migrated.read_only_iff hnumbered hrecording hfirst.known⟩
  obtain ⟨hnumber, hpending⟩ := hfirst.behind opener hopener
  obtain ⟨index, hindex, hnothing⟩ := hpending [] hdone
  have hlength := congrArg List.length hnothing
  rw [List.length_drop, List.length_take, List.length_nil] at hlength
  omega

/-- The build that was overtaken fails, and the file is at the third migration. -/
theorem openers_agree_taking_turns :
    (opened createTable takingTurns).openers.map (·.pending.isSome) = [true, false] ∧
      ∃ count ≤ oneTableEach.length,
        Migrated createTable oneTableEach count (opened createTable takingTurns).file := by
  refine ⟨by decide +kernel, ?_⟩
  obtain ⟨count, later, hlater, hknown, hmigrated, _⟩ := openers_agree (numbered_migrations _)
    recording_one_table_each takingTurns []
  exact ⟨count, hlater.trans hknown, hmigrated⟩

/-- Scripts that ran, ran one after the other. -/
theorem scripted_before {index : Nat} (hindex : index < number) (hnumber : number ≤ releases.length)
    {schema : List SchemaRow} (hscripted : scripted execute (releases.take number) = .ok schema) :
    ∃ before next, scripted execute (releases.take index) = .ok before ∧
      execute (releases[index]).sql before = .ok next := by
  have hinside : index < (releases.take number).length := by
    rw [List.length_take]
    omega
  have hsplit : releases.take number =
      releases.take index ++ releases[index] :: (releases.take number).drop (index + 1) := by
    conv => lhs; rw [← List.take_append_drop index (releases.take number)]
    rw [List.take_take, min_eq_left (le_of_lt hindex), List.drop_eq_getElem_cons hinside,
      List.getElem_take]
  rw [scripted, hsplit, List.foldlM_append] at hscripted
  obtain ⟨before, hbefore, hscripted⟩ := exists_of_bind hscripted
  rw [List.foldlM_cons] at hscripted
  obtain ⟨next, hnext, _⟩ := exists_of_bind hscripted
  exact ⟨before, next, hbefore, hnext⟩

/-- An open in which nothing fails but what a script says. -/
def Smooth (env : OpenEnv) : Prop :=
  (∀ version, env.migrating version = none) ∧ ∃ appliedAtUs, toMicros env.now = .ok appliedAtUs

/-- The next migration is applied when nothing fails. -/
theorem migrate_one_ok (h : Migrated execute releases count file) (hnumbered : Numbered releases)
    (hrecording : Recording execute releases) (hcount : count < number)
    (hnumber : number ≤ releases.length) (hsmooth : Smooth env) {schema : List SchemaRow}
    (hscripted : scripted execute (releases.take number) = .ok schema) :
    ∃ next, migrateOne execute env file releases[count] = .ok next := by
  obtain ⟨hquiet, appliedAtUs, hnow⟩ := hsmooth
  obtain ⟨before, next, hbefore, hnext⟩ := scripted_before hcount hnumber hscripted
  cases h.schema.symm.trans hbefore
  have htable := hrecording (count + 1) next (Nat.succ_pos _)
    (scripted_succ (by omega) h.schema hnext)
  have hfresh : ¬ (file.applied.any fun row => row.version = releases[count].version) = true := by
    intro hany
    obtain ⟨row, hrow, hsame⟩ := List.any_eq_true.mp hany
    have hmem : (row.version, row.name) ∈
        (releases.take count).map fun migration => (migration.version, migration.name) := by
      rw [← h.applied]
      exact List.mem_map.mpr ⟨row, hrow, rfl⟩
    obtain ⟨migration, hmigration, heq⟩ := List.mem_map.mp hmem
    have hle := (version_le_iff hnumbered (List.mem_of_mem_take hmigration) count).mpr hmigration
    have hversion : (releases[count]).version = (count : Int) + 1 := hnumbered count (by omega)
    have hrows : migration.version = row.version := congrArg Prod.fst heq
    have hsame : row.version = (releases[count]).version := of_decide_eq_true hsame
    omega
  refine ⟨⟨next, file.applied ++ [⟨releases[count].version, releases[count].name, appliedAtUs⟩]⟩,
    ?_⟩
  rw [migrateOne, hquiet]
  show (execute (releases[count]).sql file.schema).bind _ = _
  rw [hnext]
  show (toMicros env.now).bind _ = _
  rw [hnow]
  show (if recordsMigrations next then _ else _) = _
  rw [if_pos htable, if_neg hfresh]

/-- Every migration is applied when nothing fails. -/
theorem migrate_each_ok (hnumbered : Numbered releases) (hrecording : Recording execute releases)
    (hnumber : number ≤ releases.length) (hsmooth : Smooth env) {schema : List SchemaRow}
    (hscripted : scripted execute (releases.take number) = .ok schema) (remaining : Nat)
    (h : Migrated execute releases count file) (hremaining : count + remaining = number) :
    (migrateEach execute env file ((releases.take number).drop count)).1 = .ok () := by
  induction remaining generalizing count file with
  | zero =>
      rw [List.drop_eq_nil_of_le (by rw [List.length_take]; omega), migrateEach]
  | succ remaining ih =>
      have hnext : count < (releases.take number).length := by
        rw [List.length_take]
        omega
      obtain ⟨next, hone⟩ := migrate_one_ok h hnumbered hrecording (by omega) hnumber hsmooth
        hscripted
      obtain ⟨_, hmigrated, _⟩ :=
        migrate_one h hnumbered (by omega) (le_refl _) (by omega) hone
      rw [List.drop_eq_getElem_cons hnext, List.getElem_take, migrateEach, hone]
      exact ih hmigrated (by omega)

/-- Whatever builds did to a file before, a build that is older than it is refused and leaves it
alone. Any other brings it forward by some of its own migrations, and has opened it exactly when
all of them are applied, as they are when nothing fails. -/
theorem open_file_reaches (hnumbered : Numbered releases) (hrecording : Recording execute releases)
    (events : List (OpenEvent releases)) (hnumber : number ≤ releases.length)
    (hopening : env.opening = none) :
    ∃ count, Migrated execute releases count (opened execute events).file ∧
      (number < count →
        openFile execute (released releases number) env (opened execute events).file =
          (.error (.tooNew count number), (opened execute events).file)) ∧
      (count ≤ number →
        ∃ reached ≤ number, count ≤ reached ∧
          Migrated execute releases reached
            (openFile execute (released releases number) env (opened execute events).file).2 ∧
          (opened execute events).file.applied <+:
            (openFile execute (released releases number) env
              (opened execute events).file).2.applied ∧
          ((openFile execute (released releases number) env (opened execute events).file).1 =
            .ok () ↔ reached = number) ∧
          (Smooth env → (∃ schema, scripted execute (releases.take number) = .ok schema) →
            reached = number)) := by
  obtain ⟨count, hopens⟩ := opening_opened hnumbered hrecording events
  have hlacking := hopens.migrated.lacking_eq hnumbered hrecording hopens.known number
  refine ⟨count, hopens.migrated, fun hless => ?_, fun hle => ?_⟩
  · rw [if_pos hless] at hlacking
    rw [openFile, hopening, migrate, hlacking]
  · rw [if_neg (by omega)] at hlacking
    have hopen : openFile execute (released releases number) env (opened execute events).file =
        migrateEach execute env (opened execute events).file
          ((releases.take number).drop count) := by
      rw [openFile, hopening, migrate, hlacking]
    rw [hopen]
    obtain ⟨reached, hreached, hcount, hmigrated, happlied, hok⟩ :=
      @migrate_each _ _ _ _ _ env hnumbered hnumber (number - count) hopens.migrated (by omega)
    refine ⟨reached, hreached, hcount, hmigrated, happlied, hok, fun hsmooth hscripted => ?_⟩
    obtain ⟨schema, hscripted⟩ := hscripted
    exact hok.mp (migrate_each_ok hnumbered hrecording hnumber hsmooth hscripted (number - count)
      hopens.migrated (by omega))

/-- After the two took turns, a build of the ninth release opens the file. -/
theorem open_file_reaches_taking_turns :
    (openFile createTable (released oneTableEach 9) noTrouble
        (opened createTable takingTurns).file).1 = .ok () ∧
      ∃ count, Migrated createTable oneTableEach count
          (opened createTable takingTurns).file ∧
        (2 < count →
          openFile createTable (released oneTableEach 2) noTrouble
              (opened createTable takingTurns).file =
            (.error (.tooNew count 2), (opened createTable takingTurns).file)) := by
  refine ⟨by decide +kernel, ?_⟩
  obtain ⟨count, hmigrated, holder, _⟩ := @open_file_reaches _ _ 2 noTrouble
    (numbered_migrations _) recording_one_table_each takingTurns (by decide) rfl
  exact ⟨count, hmigrated, holder⟩

end Releases

/-! ## Schema findings -/

section Findings

variable {execute : String → List SchemaRow → Except StorageError (List SchemaRow)}
variable {releases : List Migration} {number : Nat}

/-- What is found of each object: that it is gone, that it was changed or that it was added. -/
theorem mem_differences {expected actual : ExtTreeMap (String ×ₗ String) String}
    {finding : String} :
    finding ∈ differences expected actual ↔ ∃ object,
      (expected[object]?.isSome ∧ actual[object]? = none ∧
        finding = objectText object ++ " is missing") ∨
      (expected[object]?.isSome ∧ actual[object]?.isSome ∧ actual[object]? ≠ expected[object]? ∧
        finding = objectText object ++ " is not defined the way its migration defines it") ∨
      (expected[object]? = none ∧ actual[object]?.isSome ∧
        finding = objectText object ++ " is not one the migrations create") := by
  rw [differences, List.mem_append, List.mem_filterMap, List.mem_filterMap]
  constructor
  · intro hfinding
    rcases hfinding with ⟨⟨object, sql⟩, hentry, hfound⟩ | ⟨object, hkey, hfound⟩
    · rw [mem_to_list] at hentry
      dsimp only at hfound
      refine ⟨object, ?_⟩
      cases hactual : actual[object]? with
      | none =>
          rw [hactual] at hfound
          exact Or.inl ⟨by rw [hentry]; rfl, rfl, (Option.some.inj hfound).symm⟩
      | some found =>
          rw [hactual] at hfound
          dsimp only at hfound
          split at hfound
          · rename_i hne
            refine Or.inr (Or.inl ⟨by rw [hentry]; rfl, rfl, ?_, (Option.some.inj hfound).symm⟩)
            rw [hentry]
            exact fun hsame => hne (Option.some.inj hsame)
          · cases hfound
    · rw [mem_keys] at hkey
      split at hfound
      · cases hfound
      · rename_i habsent
        refine ⟨object, Or.inr (Or.inr ⟨?_, hkey, (Option.some.inj hfound).symm⟩)⟩
        rw [ExtTreeMap.contains_eq_isSome_getElem?] at habsent
        simpa using habsent
  · intro hfinding
    obtain ⟨object, ⟨hexpected, hactual, rfl⟩ | ⟨hexpected, hactual, hne, rfl⟩ |
      ⟨hexpected, hactual, rfl⟩⟩ := hfinding
    · obtain ⟨sql, hsql⟩ := Option.isSome_iff_exists.mp hexpected
      refine Or.inl ⟨(object, sql), mem_to_list.mpr hsql, ?_⟩
      dsimp only
      rw [hactual]
    · obtain ⟨sql, hsql⟩ := Option.isSome_iff_exists.mp hexpected
      obtain ⟨found, hfound⟩ := Option.isSome_iff_exists.mp hactual
      refine Or.inl ⟨(object, sql), mem_to_list.mpr hsql, ?_⟩
      rw [hsql, hfound] at hne
      dsimp only
      rw [hfound]
      dsimp only
      rw [if_pos fun hsame => hne (congrArg some hsame)]
    · refine Or.inr ⟨object, mem_keys.mpr hactual, ?_⟩
      rw [if_neg]
      rw [ExtTreeMap.contains_eq_isSome_getElem?, hexpected]
      simp

/-- Nothing is found exactly when the objects are the same. -/
theorem differences_eq_nil_iff {expected actual : ExtTreeMap (String ×ₗ String) String} :
    differences expected actual = [] ↔ expected = actual := by
  constructor
  · intro hnil
    have hnothing : ∀ finding, finding ∉ differences expected actual := by
      rw [hnil]
      exact fun _ => List.not_mem_nil
    apply ExtTreeMap.ext_getElem?
    intro object
    cases hexpected : expected[object]? with
    | none =>
        cases hactual : actual[object]? with
        | none => rfl
        | some found =>
            exact absurd (mem_differences.mpr ⟨object, Or.inr (Or.inr
              ⟨hexpected, by rw [hactual]; rfl, rfl⟩)⟩) (hnothing _)
    | some sql =>
        by_contra hne
        cases hactual : actual[object]? with
        | none =>
            exact hnothing _ (mem_differences.mpr ⟨object, Or.inl
              ⟨by rw [hexpected]; rfl, hactual, rfl⟩⟩)
        | some found =>
            refine hnothing _ (mem_differences.mpr ⟨object, Or.inr (Or.inl
              ⟨by rw [hexpected]; rfl, by rw [hactual]; rfl, ?_, rfl⟩)⟩)
            rw [hexpected]
            exact Ne.symm hne
  · rintro rfl
    refine List.eq_nil_iff_forall_not_mem.mpr fun finding hfinding => ?_
    obtain ⟨object, ⟨hexpected, hactual, _⟩ | ⟨_, _, hne, _⟩ | ⟨hexpected, hactual, _⟩⟩ :=
      mem_differences.mp hfinding
    · rw [hactual] at hexpected
      cases hexpected
    · exact hne rfl
    · rw [hexpected] at hactual
      cases hactual

/-- The migrations up to a version a build knows. -/
theorem filter_older (hnumbered : Numbered releases) {count : Nat} (hcount : count ≤ number) :
    (releases.take number).filter (fun migration => migration.version ≤ (count : Int)) =
      releases.take count := by
  have hsplit := List.take_append_drop count (releases.take number)
  conv => lhs; rw [← hsplit]
  rw [List.filter_append, List.filter_eq_self.mpr, List.filter_eq_nil_iff.mpr, List.append_nil,
    List.take_take, min_eq_left hcount]
  · intro migration hmem
    obtain ⟨index, hindex, rfl⟩ := List.mem_drop_iff_getElem.mp hmem
    rw [List.length_take] at hindex
    have hversion : (releases[count + index]).version = ((count + index : Nat) : Int) + 1 :=
      hnumbered (count + index) (by omega)
    rw [List.getElem_take, hversion]
    intro hle
    have hle := of_decide_eq_true hle
    omega
  · intro migration hmem
    rw [List.take_take, min_eq_left hcount] at hmem
    exact decide_eq_true ((version_le_iff hnumbered (List.mem_of_mem_take hmem) count).mpr hmem)

/-- What a file is compared with is what the migrations make up to the version it says. -/
theorem schema_differences_eq (hnumbered : Numbered releases) {count : Nat}
    (hcount : count ≤ number) {file : EventFile} (hversion : file.version = count)
    {schema : List SchemaRow} (hscripted : scripted execute (releases.take count) = .ok schema) :
    schemaDifferences execute (released releases number) file =
      .ok (differences (schemaObjects schema) (schemaObjects file.schema)) := by
  rw [schemaDifferences, hversion, released, filter_older hnumbered hcount, hscripted]
  rfl

/-- Whatever is done to the schema of a file that builds have opened, while its records are left,
a build that knows its migrations names each object that is gone, changed or added, and nothing
else. It finds nothing exactly when every object is as the migrations make it. A file that lost
the table of the migrations is compared with an empty one. -/
theorem schema_differences_exact (hnumbered : Numbered releases)
    (hrecording : Recording execute releases) (events : List (OpenEvent releases))
    {schema : List SchemaRow} :
    ∃ count, Migrated execute releases count (opened execute events).file ∧
      ∀ number, count ≤ number → ∃ findings,
        schemaDifferences execute (released releases number)
          ⟨schema, (opened execute events).file.applied⟩ = .ok findings ∧
        (recordsMigrations schema = true →
          (findings = [] ↔
            schemaObjects schema = schemaObjects (opened execute events).file.schema) ∧
          ∀ finding, finding ∈ findings ↔ ∃ object,
            ((schemaObjects (opened execute events).file.schema)[object]?.isSome ∧
              (schemaObjects schema)[object]? = none ∧
              finding = objectText object ++ " is missing") ∨
            ((schemaObjects (opened execute events).file.schema)[object]?.isSome ∧
              (schemaObjects schema)[object]?.isSome ∧
              (schemaObjects schema)[object]? ≠
                (schemaObjects (opened execute events).file.schema)[object]? ∧
              finding = objectText object ++
                " is not defined the way its migration defines it") ∨
            ((schemaObjects (opened execute events).file.schema)[object]? = none ∧
              (schemaObjects schema)[object]?.isSome ∧
              finding = objectText object ++ " is not one the migrations create")) ∧
        (recordsMigrations schema = false → (findings = [] ↔ schemaObjects schema = ∅)) := by
  obtain ⟨count, hopens⟩ := opening_opened hnumbered hrecording events
  refine ⟨count, hopens.migrated, fun number hcount => ?_⟩
  by_cases htable : recordsMigrations schema = true
  · have hversion : EventFile.version ⟨schema, (opened execute events).file.applied⟩ = count := by
      rw [EventFile.version, if_pos htable]
      exact hopens.migrated.highest_eq hnumbered hopens.known
    refine ⟨_, schema_differences_eq hnumbered hcount hversion hopens.migrated.schema,
      fun _ => ⟨differences_eq_nil_iff.trans eq_comm, fun finding => mem_differences⟩,
      fun hnone => ?_⟩
    rw [htable] at hnone
    cases hnone
  · have hversion : EventFile.version ⟨schema, (opened execute events).file.applied⟩ =
        ((0 : Nat) : Int) := by
      rw [EventFile.version, if_neg htable]
      rfl
    refine ⟨_, schema_differences_eq hnumbered (Nat.zero_le _) hversion rfl,
      fun hsome => absurd hsome htable, fun _ => differences_eq_nil_iff.trans eq_comm⟩

/-- The first table is as it was, the second is gone, the third was changed and a view added. -/
def tampered : List SchemaRow :=
  [⟨"table", "schema_migrations",
      some "CREATE TABLE schema_migrations (version INTEGER PRIMARY KEY, name TEXT NOT NULL)"⟩,
    ⟨"table", "results_and_revisions", some "CREATE TABLE results_and_revisions (id TEXT)"⟩,
    ⟨"view", "reads", some "CREATE VIEW reads AS SELECT 1"⟩]

/-- A build of the ninth release finds the three. -/
theorem schema_differences_exact_tampered :
    schemaDifferences createTable (released oneTableEach 9)
        ⟨tampered, (opened createTable takingTurns).file.applied⟩ =
      .ok ["table event_configuration is missing",
        "table results_and_revisions is not defined the way its migration defines it",
        "view reads is not one the migrations create"] ∧
      ∃ count, Migrated createTable oneTableEach count (opened createTable takingTurns).file ∧
        ∀ number, count ≤ number → ∃ findings,
          schemaDifferences createTable (released oneTableEach number)
              ⟨tampered, (opened createTable takingTurns).file.applied⟩ = .ok findings ∧
            (findings = [] ↔ schemaObjects tampered =
              schemaObjects (opened createTable takingTurns).file.schema) := by
  refine ⟨by decide +kernel, ?_⟩
  obtain ⟨count, hmigrated, hfindings⟩ := @schema_differences_exact _ _ (numbered_migrations _)
    recording_one_table_each takingTurns tampered
  refine ⟨count, hmigrated, fun number hcount => ?_⟩
  obtain ⟨findings, heq, htable, _⟩ := hfindings number hcount
  exact ⟨findings, heq, (htable (by decide +kernel)).1⟩

end Findings

end Splitforge.Storage
