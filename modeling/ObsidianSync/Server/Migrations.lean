import ObsidianSync.Lib.Run
import ObsidianSync.Shared.VectorLaws

/-!
# Migrations

`migrate` applies the scripts of a directory in the order of their names, each in one
serializable transaction that also inserts its version into `schema_migrations`.  Servers and
the command line may run it at the same time.  The look into `schema_migrations` is a statement
of its own before the transaction; that no script is applied twice is due to the primary key.
Any statement may fail, and a connection or a process may be lost after a `COMMIT`; `withTx` is
called for one attempt, so that nothing is tried again.

## Main definitions

* `migrationFiles`, `versionOf` — the scripts of a directory, and their versions.
* `MigrationDb`, `MigrateCall` — the database, and a call of `migrate`.
* `migrateStep` — the next statement of one of the calls, or a new call.
* `Migrated` — the scripts are applied in their order, each once.

## Main results

* `migrated_run` — **whatever the calls do at the same time, the scripts are applied in their
  order, each once, and a call that returns leaves none of its scripts out.**
* `settled_run` — after that no call changes the database.
-/

namespace ObsidianSync

open VersionVector (NotAfter)

/-! ### The directory -/

/-- `'.sql'`. -/
def scriptEnding : List Char := ".sql".toList

/-- The script files that `readdir` lists, in the order of `sort()`. -/
def migrationFiles (listing : List String) : List String :=
  (listing.filter fun file => scriptEnding.isSuffixOf file.toList).insertionSort NotAfter

/-- `file.replace(/\.sql$/, '')`. -/
def versionOf (file : String) : String :=
  if scriptEnding.isSuffixOf file.toList then
    String.ofList (file.toList.take (file.toList.length - scriptEnding.length))
  else file

/-! ### The database -/

/-- The database: `schema_migrations`, where it has been created, in the order of the inserts,
and everything else. -/
structure MigrationDb (σ : Type) where
  migrations : Option (List String) := none
  schema : σ

/-- How a statement ends. -/
inductive StatementEnd
  | done
  /-- Nothing is done, and an error is thrown. -/
  | failed
  /-- It is done, but the caller does not learn of it. -/
  | lost
  deriving DecidableEq, Repr

namespace MigrationDb

variable {σ : Type}

/-- The rows of `schema_migrations`. -/
def rows (db : MigrationDb σ) : List String := db.migrations.getD []

/-- `CREATE TABLE IF NOT EXISTS schema_migrations`. -/
def createTable (db : MigrationDb σ) : MigrationDb σ := { db with migrations := some db.rows }

/-- The transaction of a script: the script, and the `INSERT`. -/
def applyScript (exec : String → σ → Option σ) (sql version : String) (db : MigrationDb σ) :
    Option (MigrationDb σ) := do
  let schema ← exec sql db.schema
  let rows ← db.migrations
  if version ∈ rows then none else some { migrations := some (rows ++ [version]), schema }

end MigrationDb

/-! ### The calls -/

/-- How far a call has come, by the statement it makes next. -/
inductive MigratePhase
  /-- Before `CREATE TABLE`. -/
  | started
  /-- Before the `SELECT` for the next file. -/
  | looking
  /-- Before the transaction of the next file. -/
  | applying
  | returned
  | threw
  deriving DecidableEq, Repr

/-- A call of `migrate`: its directory, the files that it has not dealt with, and `applied`. -/
structure MigrateCall where
  listing : List String
  files : List String := []
  applied : List String := []
  phase : MigratePhase := .started
  deriving DecidableEq, Repr

namespace MigrateCall

/-- The loop goes on with the files, or the call returns. -/
def goOn (call : MigrateCall) (files : List String) : MigrateCall :=
  { call with files, phase := if files = [] then .returned else .looking }

/-- The call ends with what it throws. -/
def throws (call : MigrateCall) : MigrateCall := { call with phase := .threw }

end MigrateCall

variable {σ : Type} (exec : String → σ → Option σ) (sql : String → String)

/-- The statement `CREATE TABLE`, and `readdir`. -/
def createStatement (ends : StatementEnd) (db : MigrationDb σ) (call : MigrateCall) :
    MigrationDb σ × MigrateCall :=
  match ends with
  | .done => (db.createTable, call.goOn (migrationFiles call.listing))
  | .failed => (db, call.throws)
  | .lost => (db.createTable, call.throws)

/-- The statement `SELECT version`, and `readFile`. -/
def selectStatement (ends : StatementEnd) (db : MigrationDb σ) (call : MigrateCall) : MigrateCall :=
  match ends, db.migrations, call.files with
  | .done, some rows, file :: files =>
    if versionOf file ∈ rows then call.goOn files else { call with phase := .applying }
  | _, _, _ => call.throws

/-- The transaction of the next file. -/
def transaction (ends : StatementEnd) (db : MigrationDb σ) (call : MigrateCall) :
    MigrationDb σ × MigrateCall :=
  match call.files with
  | [] => (db, call.throws)
  | file :: files =>
    match ends, db.applyScript exec (sql file) (versionOf file) with
    | .done, some db' =>
      (db', { call with applied := call.applied ++ [versionOf file] }.goOn files)
    | .lost, some db' => (db', call.throws)
    | _, _ => (db, call.throws)

/-- The next statement of a call. -/
def statement (ends : StatementEnd) (db : MigrationDb σ) (call : MigrateCall) :
    MigrationDb σ × MigrateCall :=
  match call.phase with
  | .started => createStatement ends db call
  | .looking => (db, selectStatement ends db call)
  | .applying => transaction exec sql ends db call
  | .returned | .threw => (db, call)

/-- The database and the calls of all processes. -/
structure MigrationServer (σ : Type) where
  db : MigrationDb σ
  calls : List MigrateCall := []

/-- What happens: calls, their statements, and the ends of processes. -/
inductive MigrateEvent
  /-- A process calls `migrate`. -/
  | call (listing : List String)
  /-- The next statement of a call. -/
  | statement (i : ℕ) (ends : StatementEnd)
  deriving DecidableEq, Repr

/-- The database and the calls after an event. -/
def migrateStep (s : MigrationServer σ) : MigrateEvent → MigrationServer σ
  | .call listing => { s with calls := s.calls ++ [{ listing }] }
  | .statement i ends =>
    match s.calls[i]? with
    | none => s
    | some call =>
      let (db, call) := statement exec sql ends s.db call
      { db, calls := s.calls.set i call }

/-! ### The property -/

/-- The schema after the scripts. -/
def runScripts (files : List String) (schema : σ) : Option σ :=
  files.foldlM (fun schema file => exec (sql file) schema) schema

/-- The scripts are those of `files`, an older release has the first of them only. -/
def Released (files : List String) (_ : MigrationServer σ) : MigrateEvent → Prop
  | .call listing => migrationFiles listing <+: files
  | .statement _ _ => True

/-- The scripts are applied in their order, each once, by calls that leave nothing out. -/
structure Migrated (files : List String) (schema : σ) (s : MigrationServer σ) : Prop where
  /-- The versions are those of the first scripts, in their order. -/
  inOrder : s.db.rows <+: files.map versionOf
  once : s.db.rows.Nodup
  /-- The schema is what these scripts make of the first one. -/
  applied : runScripts exec sql (files.take s.db.rows.length) schema = some s.db.schema
  /-- A call that has returned has left out none of its scripts. -/
  complete : ∀ call ∈ s.calls, call.phase = .returned →
    (migrationFiles call.listing).map versionOf <+: s.db.rows
  /-- No script is reported twice, and none that was not applied. -/
  reported : (s.calls.flatMap MigrateCall.applied).Subperm s.db.rows

/-! ### The database -/

namespace MigrationDb

theorem applyScript_eq_some_iff {db db' : MigrationDb σ} {script version : String} :
    db.applyScript exec script version = some db' ↔
      ∃ schema rows, exec script db.schema = some schema ∧ db.migrations = some rows ∧
        version ∉ rows ∧ db' = { migrations := some (rows ++ [version]), schema } := by
  simp only [applyScript, Option.bind_eq_bind, Option.bind_eq_some_iff]
  constructor
  · rintro ⟨schema, hexec, rows, hrows, h⟩
    split at h
    · cases h
    · next hnew => exact ⟨schema, rows, hexec, hrows, hnew, (Option.some.inj h).symm⟩
  · rintro ⟨schema, rows, hexec, hrows, hnew, rfl⟩
    exact ⟨schema, hexec, rows, hrows, if_neg hnew⟩

/-- The `INSERT` adds the version, which was not there, and the script makes the schema. -/
theorem of_applyScript {db db' : MigrationDb σ} {script version : String}
    (h : db.applyScript exec script version = some db') :
    version ∉ db.rows ∧ db'.rows = db.rows ++ [version] ∧
      exec script db.schema = some db'.schema := by
  obtain ⟨schema, rows, hexec, hrows, hnew, rfl⟩ := applyScript_eq_some_iff exec |>.mp h
  have hdb : db.rows = rows := by simp [MigrationDb.rows, hrows]
  exact ⟨hdb ▸ hnew, by simp [MigrationDb.rows, hrows], hexec⟩

end MigrationDb

/-! ### The versions -/

/-- A script file is its version with the ending. -/
theorem eq_versionOf_append {file : String} (h : scriptEnding.isSuffixOf file.toList = true) :
    file.toList = (versionOf file).toList ++ scriptEnding := by
  obtain ⟨front, hfront⟩ := List.isSuffixOf_iff_suffix.mp h
  rw [versionOf, if_pos h, String.toList_ofList, ← hfront]
  simp

theorem mem_migrationFiles {listing : List String} {file : String} :
    file ∈ migrationFiles listing ↔
      file ∈ listing ∧ scriptEnding.isSuffixOf file.toList = true := by
  rw [migrationFiles, List.mem_insertionSort, List.mem_filter]

/-- The scripts of a directory have different versions. -/
theorem nodup_versions {listing : List String} (h : listing.Nodup) :
    ((migrationFiles listing).map versionOf).Nodup := by
  have hfiles : (migrationFiles listing).Nodup :=
    (List.perm_insertionSort _ _).nodup_iff.mpr (h.filter _)
  refine hfiles.map_on fun a ha b hb hab => ?_
  rw [← String.toList_inj, eq_versionOf_append (mem_migrationFiles.mp ha).2,
    eq_versionOf_append (mem_migrationFiles.mp hb).2, hab]

/-! ### One call -/

/-- How far the call has come: what it has left behind is among the versions. -/
structure CallKept (files rows : List String) (call : MigrateCall) : Prop where
  listed : migrationFiles call.listing <+: files
  passed : call.phase = .looking ∨ call.phase = .applying ∨ call.phase = .returned →
    ∃ done, done ++ call.files = migrationFiles call.listing ∧ done.map versionOf <+: rows
  ended : call.phase = .returned → call.files = []

namespace CallKept

variable {files rows rows' rest done : List String} {call : MigrateCall}

theorem mono (h : CallKept files rows call) (hrows : rows <+: rows') :
    CallKept files rows' call where
  listed := h.listed
  passed hphase := by
    obtain ⟨done, hdone, hle⟩ := h.passed hphase
    exact ⟨done, hdone, hle.trans hrows⟩
  ended := h.ended

theorem throws (h : CallKept files rows call) : CallKept files rows call.throws where
  listed := h.listed
  passed := by simp [MigrateCall.throws]
  ended := by simp [MigrateCall.throws]

/-- The loop goes on where the versions of the files before are there. -/
theorem goOn (hlisted : migrationFiles call.listing <+: files)
    (hdone : done ++ rest = migrationFiles call.listing) (hle : done.map versionOf <+: rows) :
    CallKept files rows (call.goOn rest) where
  listed := hlisted
  passed _ := ⟨done, hdone, hle⟩
  ended := by
    simp only [MigrateCall.goOn]
    split
    · next hnil => exact fun _ => hnil
    · simp

/-- Where the versions are the first ones, and more than those before the file, that of the
file is among them. -/
theorem passed_next {file : String} (hrows : rows <+: files.map versionOf)
    (hlisted : done ++ file :: rest <+: files) (hlt : done.length < rows.length) :
    (done ++ [file]).map versionOf <+: rows := by
  have hfiles : (done ++ [file]).map versionOf <+: files.map versionOf := by
    refine List.IsPrefix.map _ (List.IsPrefix.trans ?_ hlisted)
    exact ⟨rest, by simp⟩
  refine List.prefix_of_prefix_length_le hfiles hrows ?_
  rw [List.length_map, List.length_append, List.length_singleton]
  exact hlt

/-- The version of the next file is among the versions exactly if there are more than those of
the files before. -/
theorem mem_rows_iff {file : String} (hnodup : (files.map versionOf).Nodup)
    (hrows : rows <+: files.map versionOf) (hlisted : done ++ file :: rest <+: files)
    (hle : done.map versionOf <+: rows) : versionOf file ∈ rows ↔ done.length < rows.length := by
  constructor
  · intro hmem
    by_contra hge
    have hall : done.map versionOf = rows :=
      hle.eq_of_length_le (by rw [List.length_map]; exact Nat.le_of_not_lt hge)
    have hsub : ((done ++ file :: rest).map versionOf).Nodup :=
      (hlisted.map versionOf).sublist.nodup hnodup
    rw [List.map_append, List.map_cons, List.nodup_append] at hsub
    exact hsub.2.2 _ (hall ▸ hmem) _ List.mem_cons_self rfl
  · intro hlt
    exact (passed_next hrows hlisted hlt).subset (by simp)

/-- Where the version of the next file is not there, the file is the next of all. -/
theorem take_of_notMem {file : String} (hnodup : (files.map versionOf).Nodup)
    (hrows : rows <+: files.map versionOf) (hlisted : done ++ file :: rest <+: files)
    (hle : done.map versionOf <+: rows) (hnew : versionOf file ∉ rows) :
    rows = done.map versionOf ∧ files.take rows.length = done ∧
      files.take (rows.length + 1) = done ++ [file] := by
  have hlt := mt (mem_rows_iff hnodup hrows hlisted hle).mpr hnew
  have hall : done.map versionOf = rows :=
    hle.eq_of_length_le (by rw [List.length_map]; exact Nat.le_of_not_lt hlt)
  have hlen : rows.length = done.length := by rw [← hall, List.length_map]
  obtain ⟨later, rfl⟩ := hlisted
  refine ⟨hall.symm, ?_, ?_⟩
  · rw [hlen, List.append_assoc, List.take_left]
  · rw [hlen, List.append_assoc, List.take_append]
    simp

end CallKept

/-- What a statement does to the database. -/
inductive StatementEffect (files : List String) (db db' : MigrationDb σ)
    (call call' : MigrateCall) : Prop
  /-- Nothing, but for the empty table. -/
  | idle (rows : db'.rows = db.rows) (schema : db'.schema = db.schema)
      (applied : call'.applied = call.applied)
  /-- It applies the next script of all. -/
  | applies (file : String) (rows : db'.rows = db.rows ++ [versionOf file])
      (new : versionOf file ∉ db.rows)
      (next : files.take db'.rows.length = files.take db.rows.length ++ [file])
      (inOrder : db'.rows <+: files.map versionOf)
      (schema : exec (sql file) db.schema = some db'.schema)
      (applied : call'.applied = call.applied ∨
        call'.applied = call.applied ++ [versionOf file])

section

variable {files : List String} {db : MigrationDb σ} {call : MigrateCall}
  (hnodup : (files.map versionOf).Nodup) (hrows : db.rows <+: files.map versionOf)
  (hkept : CallKept files db.rows call)

@[simp] theorem MigrationDb.rows_createTable (db : MigrationDb σ) : db.createTable.rows = db.rows :=
  rfl

include hkept in
theorem createStatement_kept (ends : StatementEnd) :
    CallKept files (createStatement ends db call).1.rows (createStatement ends db call).2 ∧
      StatementEffect exec sql files db (createStatement ends db call).1 call
        (createStatement ends db call).2 := by
  cases ends with
  | done =>
    refine ⟨CallKept.goOn hkept.listed (List.nil_append _) ⟨_, rfl⟩, ?_⟩
    exact .idle rfl rfl rfl
  | failed => exact ⟨hkept.throws, .idle rfl rfl rfl⟩
  | lost => exact ⟨hkept.throws, .idle rfl rfl rfl⟩

include hnodup hrows hkept in
theorem selectStatement_kept (hphase : call.phase = .looking) (ends : StatementEnd) :
    CallKept files db.rows (selectStatement ends db call) ∧
      (selectStatement ends db call).applied = call.applied := by
  obtain ⟨done, hdone, hle⟩ := hkept.passed (Or.inl hphase)
  cases ends with
  | failed => exact ⟨hkept.throws, rfl⟩
  | lost => exact ⟨hkept.throws, rfl⟩
  | done =>
    cases hmigrations : db.migrations with
    | none =>
      simp only [selectStatement, hmigrations]
      exact ⟨hkept.throws, rfl⟩
    | some rows =>
      have hdb : db.rows = rows := by simp [MigrationDb.rows, hmigrations]
      cases hrest : call.files with
      | nil =>
        simp only [selectStatement, hmigrations, hrest]
        exact ⟨hkept.throws, rfl⟩
      | cons file rest =>
        rw [hrest] at hdone
        have hlisted : done ++ file :: rest <+: files := hdone ▸ hkept.listed
        simp only [selectStatement, hmigrations, hrest]
        split
        · next hmem =>
          have hlt := (CallKept.mem_rows_iff hnodup hrows hlisted hle).mp (hdb ▸ hmem)
          have hrest : (done ++ [file]) ++ rest = migrationFiles call.listing := by
            rw [← hdone, List.append_assoc, List.singleton_append]
          have hpassed := CallKept.passed_next hrows hlisted hlt
          exact ⟨CallKept.goOn hkept.listed hrest hpassed, rfl⟩
        · exact ⟨⟨hkept.listed, fun _ => ⟨done, hdone, hle⟩, by simp⟩, rfl⟩

include hnodup hrows hkept in
theorem transaction_kept (hphase : call.phase = .applying) (ends : StatementEnd) :
    CallKept files (transaction exec sql ends db call).1.rows
        (transaction exec sql ends db call).2 ∧
      StatementEffect exec sql files db (transaction exec sql ends db call).1 call
        (transaction exec sql ends db call).2 := by
  obtain ⟨done, hdone, hle⟩ := hkept.passed (Or.inr (Or.inl hphase))
  cases hrest : call.files with
  | nil =>
    simp only [transaction, hrest]
    exact ⟨hkept.throws, .idle rfl rfl rfl⟩
  | cons file rest =>
    rw [hrest] at hdone
    have hlisted : done ++ file :: rest <+: files := hdone ▸ hkept.listed
    cases happly : db.applyScript exec (sql file) (versionOf file) with
    | none =>
      have hidle : transaction exec sql ends db call = (db, call.throws) := by
        cases ends <;> simp [transaction, hrest, happly]
      rw [hidle]
      exact ⟨hkept.throws, .idle rfl rfl rfl⟩
    | some db' =>
      obtain ⟨hnew, hrows', hexec⟩ := MigrationDb.of_applyScript exec happly
      obtain ⟨hall, htake, htake'⟩ :=
        CallKept.take_of_notMem hnodup hrows hlisted hle hnew
      have hpassed : db'.rows = (done ++ [file]).map versionOf := by
        rw [hrows', hall, List.map_append, List.map_singleton]
      have hinOrder : db'.rows <+: files.map versionOf := by
        rw [hpassed]
        refine List.IsPrefix.map _ (List.IsPrefix.trans ?_ hlisted)
        exact ⟨rest, by simp⟩
      have hnext : files.take db'.rows.length = files.take db.rows.length ++ [file] := by
        rw [hrows', List.length_append, List.length_singleton, htake, htake']
      -- whether the answer arrives or is lost, the script was applied
      have happlies : ∀ call' : MigrateCall, (call'.applied = call.applied ∨
          call'.applied = call.applied ++ [versionOf file]) →
          StatementEffect exec sql files db db' call call' :=
        fun _ => .applies file hrows' hnew hnext hinOrder hexec
      have hmono : db.rows <+: db'.rows := ⟨[versionOf file], hrows'.symm⟩
      cases ends with
      | done =>
        simp only [transaction, hrest, happly]
        have hrest : (done ++ [file]) ++ rest = migrationFiles call.listing := by
          rw [← hdone, List.append_assoc, List.singleton_append]
        have hle' : (done ++ [file]).map versionOf <+: db'.rows := ⟨[], by rw [hpassed]; simp⟩
        exact ⟨CallKept.goOn hkept.listed hrest hle', happlies _ (Or.inr rfl)⟩
      | failed =>
        simp only [transaction, hrest]
        exact ⟨hkept.throws, .idle rfl rfl rfl⟩
      | lost =>
        simp only [transaction, hrest, happly]
        exact ⟨(hkept.mono hmono).throws, happlies _ (Or.inl rfl)⟩

include hnodup hrows hkept in
/-- What a call has left behind is among the versions after its next statement, which applies the
next script of all or does nothing. -/
theorem statement_kept (ends : StatementEnd) :
    CallKept files (statement exec sql ends db call).1.rows (statement exec sql ends db call).2 ∧
      StatementEffect exec sql files db (statement exec sql ends db call).1 call
        (statement exec sql ends db call).2 := by
  cases hphase : call.phase with
  | started =>
    simp only [statement, hphase]
    exact createStatement_kept exec sql hkept ends
  | looking =>
    simp only [statement, hphase]
    obtain ⟨h, happlied⟩ := selectStatement_kept hnodup hrows hkept hphase ends
    exact ⟨h, .idle rfl rfl happlied⟩
  | applying =>
    simp only [statement, hphase]
    exact transaction_kept exec sql hnodup hrows hkept hphase ends
  | returned =>
    simp only [statement, hphase]
    exact ⟨hkept, .idle rfl rfl rfl⟩
  | threw =>
    simp only [statement, hphase]
    exact ⟨hkept, .idle rfl rfl rfl⟩

end

/-! ### Any number of calls -/

/-- The invariant of the calls. -/
structure MigrationsKept (files : List String) (schema : σ) (s : MigrationServer σ) : Prop where
  inOrder : s.db.rows <+: files.map versionOf
  once : s.db.rows.Nodup
  applied : runScripts exec sql (files.take s.db.rows.length) schema = some s.db.schema
  reported : (s.calls.flatMap MigrateCall.applied).Subperm s.db.rows
  kept : ∀ call ∈ s.calls, CallKept files s.db.rows call

variable {files : List String} {schema : σ} {s : MigrationServer σ}

theorem MigrationsKept.migrated (h : MigrationsKept exec sql files schema s) :
    Migrated exec sql files schema s where
  inOrder := h.inOrder
  once := h.once
  applied := h.applied
  complete call hcall hreturned := by
    have hkept := h.kept call hcall
    obtain ⟨done, hdone, hle⟩ := hkept.passed (Or.inr (Or.inr hreturned))
    rw [hkept.ended hreturned, List.append_nil] at hdone
    exact hdone ▸ hle
  reported := h.reported

theorem runScripts_append (front back : List String) :
    runScripts exec sql (front ++ back) schema =
      (runScripts exec sql front schema).bind (runScripts exec sql back) := by
  rw [runScripts, List.foldlM_append]
  rfl

/-- What the calls report, with one of them in another state. -/
theorem flatMap_set {calls : List MigrateCall} {i : ℕ} (hi : i < calls.length)
    (call : MigrateCall) : (calls.set i call).flatMap MigrateCall.applied =
      (calls.take i).flatMap MigrateCall.applied ++
        (call.applied ++ (calls.drop (i + 1)).flatMap MigrateCall.applied) := by
  have hset : calls.set i call = calls.take i ++ call :: calls.drop (i + 1) :=
    List.set_eq_take_append_cons_drop.trans (if_pos hi)
  rw [hset, List.flatMap_append, List.flatMap_cons]

theorem flatMap_set_of_eq {calls : List MigrateCall} {i : ℕ} {call call' : MigrateCall}
    (hcall : calls[i]? = some call) (happlied : call'.applied = call.applied) :
    (calls.set i call').flatMap MigrateCall.applied = calls.flatMap MigrateCall.applied := by
  obtain ⟨hi, rfl⟩ := List.getElem?_eq_some_iff.mp hcall
  rw [flatMap_set hi, happlied, ← flatMap_set hi, List.set_getElem_self]

/-- What the calls report once one of them reports a version more. -/
theorem perm_flatMap_set {calls : List MigrateCall} {i : ℕ} {call call' : MigrateCall}
    {version : String} (hcall : calls[i]? = some call)
    (hmore : call'.applied = call.applied ++ [version]) :
    ((calls.set i call').flatMap MigrateCall.applied).Perm
      (calls.flatMap MigrateCall.applied ++ [version]) := by
  obtain ⟨hi, rfl⟩ := List.getElem?_eq_some_iff.mp hcall
  have hself := flatMap_set hi calls[i]
  rw [List.set_getElem_self] at hself
  rw [flatMap_set hi, hself, hmore]
  simp only [List.append_assoc]
  exact (List.perm_append_comm.append_left _).append_left _

theorem MigrationsKept.call (h : MigrationsKept exec sql files schema s) {listing : List String}
    (hlisting : migrationFiles listing <+: files) :
    MigrationsKept exec sql files schema (migrateStep exec sql s (.call listing)) where
  inOrder := h.inOrder
  once := h.once
  applied := h.applied
  reported := by
    have hnone : (migrateStep exec sql s (.call listing)).calls.flatMap MigrateCall.applied =
        s.calls.flatMap MigrateCall.applied := by
      simp [migrateStep]
    rw [hnone]
    exact h.reported
  kept call hcall := by
    rcases List.mem_append.mp hcall with hcall | hcall
    · exact h.kept call hcall
    · rw [List.mem_singleton.mp hcall]
      exact ⟨hlisting, by simp, by simp⟩

theorem MigrationsKept.statement (hnodup : (files.map versionOf).Nodup)
    (h : MigrationsKept exec sql files schema s) (i : ℕ) (ends : StatementEnd) :
    MigrationsKept exec sql files schema (migrateStep exec sql s (.statement i ends)) := by
  cases hcall : s.calls[i]? with
  | none =>
    simp only [migrateStep, hcall]
    exact h
  | some call =>
    simp only [migrateStep, hcall]
    have hmem := List.mem_of_getElem? hcall
    obtain ⟨hkept, heffect⟩ :=
      statement_kept exec sql hnodup h.inOrder (h.kept call hmem) ends
    generalize ObsidianSync.statement exec sql ends s.db call = next at hkept heffect ⊢
    have hcalls : s.db.rows <+: next.1.rows →
        ∀ other ∈ s.calls.set i next.2, CallKept files next.1.rows other := by
      intro hmono other hother
      rcases List.mem_or_eq_of_mem_set hother with hother | rfl
      · exact (h.kept other hother).mono hmono
      · exact hkept
    cases heffect with
    | idle hrows hschema happlied =>
      refine ⟨hrows ▸ h.inOrder, hrows ▸ h.once, ?_, ?_, hcalls ⟨[], by rw [hrows]; simp⟩⟩
      · rw [hrows, hschema]
        exact h.applied
      · show ((s.calls.set i next.2).flatMap MigrateCall.applied).Subperm next.1.rows
        rw [hrows, flatMap_set_of_eq hcall happlied]
        exact h.reported
    | applies file hrows hnew hnext hinOrder hschema happlied =>
      refine ⟨hinOrder, ?_, ?_, ?_, hcalls ⟨_, hrows.symm⟩⟩
      · rw [hrows, List.nodup_append]
        refine ⟨h.once, List.nodup_singleton _, fun a ha b hb => ?_⟩
        rw [List.mem_singleton.mp hb]
        exact fun hab => hnew (hab ▸ ha)
      · rw [hnext, runScripts_append, h.applied]
        simpa [runScripts] using hschema
      · show ((s.calls.set i next.2).flatMap MigrateCall.applied).Subperm next.1.rows
        rw [hrows]
        rcases happlied with happlied | happlied
        · rw [flatMap_set_of_eq hcall happlied]
          exact h.reported.trans (List.sublist_append_left _ _).subperm
        · exact (perm_flatMap_set hcall happlied).subperm.trans
            ((List.subperm_append_right _).mpr h.reported)

theorem MigrationsKept.step (hnodup : (files.map versionOf).Nodup) (e : MigrateEvent)
    (h : MigrationsKept exec sql files schema s) (he : Released files s e) :
    MigrationsKept exec sql files schema (migrateStep exec sql s e) := by
  cases e with
  | call listing => exact h.call exec sql he
  | statement i ends => exact h.statement exec sql hnodup i ends

theorem migrationsKept_empty (files : List String) (schema : σ) :
    MigrationsKept exec sql files schema { db := { schema } } where
  inOrder := ⟨_, rfl⟩
  once := List.nodup_nil
  applied := rfl
  reported := List.Subperm.refl _
  kept _ hcall := nomatch hcall

/-- **Each script is applied once, in its place.**  From an empty database on, whatever the calls
do at the same time and whatever fails, the scripts are applied in the order of their names, none
of them twice and none reported twice, and a call that returns leaves none of its scripts out. -/
theorem migrated_run {dir : List String} (hdir : dir.Nodup) (schema : σ) (es : List MigrateEvent)
    (hes : Run.EachStep (migrateStep exec sql) (Released (migrationFiles dir)) { db := { schema } }
      es) :
    Run.Throughout (migrateStep exec sql) (Migrated exec sql (migrationFiles dir) schema)
      { db := { schema } } es := by
  have hkept := Run.throughout_of_invariant
    (fun _ e h he => MigrationsKept.step exec sql (nodup_versions hdir) e h he)
    (migrationsKept_empty exec sql _ schema) hes
  exact hkept.mono fun _ h => h.migrated

/-- The scripts that a process appends to what the database was told. -/
def tellScript (script : String) (told : List String) : Option (List String) :=
  some (told ++ [script])

/-- Two calls that both miss the first script: the second one fails at the primary key. -/
def sampleMigrations : List MigrateEvent :=
  [.call ["002_b.sql", "notes.md", "001_a.sql"], .call ["001_a.sql"],
    .statement 0 .done, .statement 0 .done, .statement 1 .done, .statement 1 .done,
    .statement 0 .done, .statement 1 .done, .statement 0 .done, .statement 0 .done]

theorem migrated_run_sample :
    Run.Throughout (migrateStep tellScript id)
        (Migrated tellScript id (migrationFiles ["001_a.sql", "002_b.sql"]) [])
        { db := { schema := [] } } sampleMigrations ∧
      (Run.final (migrateStep tellScript id) { db := { schema := [] } }
        sampleMigrations).calls.map MigrateCall.phase = [.returned, .threw] :=
  ⟨migrated_run tellScript id (by decide) [] sampleMigrations
    (by refine ⟨?_, ?_, trivial, trivial, trivial, trivial, trivial, trivial, trivial, trivial,
          trivial⟩ <;> (simp only [Released]; decide)),
    by decide⟩

/-! ### After a call has returned -/

/-- Nothing is applied any more, and nothing reported. -/
structure MigrationsSettled (s s' : MigrationServer σ) : Prop where
  rows : s'.db.rows = s.db.rows
  schema : s'.db.schema = s.db.schema
  quiet : s'.calls.flatMap MigrateCall.applied = s.calls.flatMap MigrateCall.applied

theorem MigrationsSettled.trans {s t u : MigrationServer σ} (h : MigrationsSettled s t)
    (h' : MigrationsSettled t u) : MigrationsSettled s u :=
  ⟨h'.rows.trans h.rows, h'.schema.trans h.schema, h'.quiet.trans h.quiet⟩

/-- Where all scripts are applied, a step applies nothing. -/
theorem settled_step (hnodup : (files.map versionOf).Nodup)
    (h : MigrationsKept exec sql files schema s) (hall : s.db.rows = files.map versionOf)
    (e : MigrateEvent) : MigrationsSettled s (migrateStep exec sql s e) := by
  cases e with
  | call listing => exact ⟨rfl, rfl, by simp [migrateStep]⟩
  | statement i ends =>
    cases hcall : s.calls[i]? with
    | none =>
      simp only [migrateStep, hcall]
      exact ⟨rfl, rfl, rfl⟩
    | some call =>
      simp only [migrateStep, hcall]
      have hmem := List.mem_of_getElem? hcall
      have heffect := (statement_kept exec sql hnodup h.inOrder (h.kept call hmem) ends).2
      cases heffect with
      | idle hrows hschema happlied =>
        exact ⟨hrows, hschema, flatMap_set_of_eq hcall happlied⟩
      | applies file hrows _ _ hinOrder =>
        have hlen := hinOrder.length_le
        rw [hrows, hall, List.length_append, List.length_singleton] at hlen
        omega

/-- **After a call of the newest release has returned, migrations change nothing**: whatever calls
run then, the database is as it was, and no call reports a script. -/
theorem settled_run {dir : List String} (hdir : dir.Nodup) (schema : σ)
    (es later : List MigrateEvent)
    (hes : Run.EachStep (migrateStep exec sql) (Released (migrationFiles dir)) { db := { schema } }
      (es ++ later)) {call : MigrateCall}
    (hcall : call ∈ (Run.final (migrateStep exec sql) { db := { schema } } es).calls)
    (hreturned : call.phase = .returned)
    (hnewest : migrationFiles call.listing = migrationFiles dir) :
    Run.Throughout (migrateStep exec sql)
      (MigrationsSettled (Run.final (migrateStep exec sql) { db := { schema } } es))
      (Run.final (migrateStep exec sql) { db := { schema } } es) later := by
  obtain ⟨hes, hlater⟩ := Run.eachStep_append.mp hes
  have hnodup := nodup_versions hdir
  have hkept := (Run.throughout_of_invariant
    (fun _ e h he => MigrationsKept.step exec sql hnodup e h he)
    (migrationsKept_empty exec sql _ schema) hes).final
  generalize Run.final (migrateStep exec sql) { db := { schema } } es = s at hkept hcall hlater ⊢
  have hall : s.db.rows = (migrationFiles dir).map versionOf := by
    have hle := hkept.migrated.complete call hcall hreturned
    rw [hnewest] at hle
    exact hkept.inOrder.eq_of_length_le hle.length_le
  have hrun := Run.throughout_of_invariant
    (I := fun t => MigrationsKept exec sql (migrationFiles dir) schema t ∧ MigrationsSettled s t)
    (fun t e ⟨ht, hsettled⟩ he =>
      ⟨ht.step exec sql hnodup e he,
        hsettled.trans (settled_step exec sql hnodup ht (hsettled.rows.trans hall) e)⟩)
    ⟨hkept, rfl, rfl, rfl⟩ hlater
  exact hrun.mono fun _ h => h.2

theorem settled_run_sample :
    Run.Throughout (migrateStep tellScript id)
      (MigrationsSettled (Run.final (migrateStep tellScript id) { db := { schema := [] } }
        sampleMigrations))
      (Run.final (migrateStep tellScript id) { db := { schema := [] } } sampleMigrations)
      [.call ["001_a.sql"], .statement 2 .done, .statement 2 .done] := by
  have hreleased : Run.EachStep (migrateStep tellScript id)
      (Released (migrationFiles ["001_a.sql", "002_b.sql"])) { db := { schema := [] } }
      (sampleMigrations ++ [.call ["001_a.sql"], .statement 2 .done, .statement 2 .done]) := by
    refine ⟨?_, ?_, trivial, trivial, trivial, trivial, trivial, trivial, trivial, trivial, ?_,
      trivial, trivial, trivial⟩ <;> (simp only [Released]; decide)
  have hmem : (⟨["002_b.sql", "notes.md", "001_a.sql"], [], ["001_a", "002_b"], .returned⟩ :
      MigrateCall) ∈ (Run.final (migrateStep tellScript id) { db := { schema := [] } }
        sampleMigrations).calls := by decide
  exact settled_run tellScript id (by decide) [] sampleMigrations _ hreleased hmem rfl (by decide)

end ObsidianSync
