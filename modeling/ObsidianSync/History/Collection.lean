import ObsidianSync.History.GcJob
import ObsidianSync.Lib.Table

/-!
# What is left of the history while the collector runs

A run of the collector reads the versions of all notes, and deletes what it selects from them with a
later statement.  In between notes are saved, and other servers' runs delete versions too.  A run
may fail at each of its statements, before or after the statement was carried out, and a server may
die.

The columns that the collector reads are modelled, of all notes at once; the snapshots and updates
themselves are not.

## Main definitions

* `GcTables` — the rooms, the snapshots, the updates and the history.
* `NoteStatement` — the statements of the rooms.
* `gcStep` — the servers over the tables.
* `HistoryKept` — no version is missing that has few newer ones, and few of the others are left.
* `KeepsCurrent` — the version a room was last saved as is in the history.

## Main results

* `historyKept_run` — **however the runs interleave, the newest versions of each note are in the
  history**, and a run leaves no more of the others than it is told.
* `keepsCurrent_run` — **the current versions are in the history**, if no room goes back.
-/

namespace ObsidianSync

/-! ### The tables -/

/-- Of a row of `yjs_rooms`. -/
structure RoomEpochRow where
  vaultId : String
  fileId : String
  roomEpoch : ℕ
  deriving DecidableEq, Repr

/-- Of a row of `yjs_snapshots`. -/
structure SnapshotSeqRow where
  vaultId : String
  fileId : String
  roomEpoch : ℕ
  compactedThroughSeq : ℕ
  deriving DecidableEq, Repr

/-- Of a row of `yjs_updates`. -/
structure UpdateSeqRow where
  vaultId : String
  fileId : String
  roomEpoch : ℕ
  seq : ℕ
  deriving DecidableEq, Repr

/-- The tables that the collector reads and deletes from. -/
structure GcTables where
  rooms : Table RoomEpochRow.fileId := Table.empty
  snapshots : Table (fun row : SnapshotSeqRow => (row.fileId, row.roomEpoch)) := Table.empty
  updates : Table (fun row : UpdateSeqRow => (row.fileId, row.roomEpoch, row.seq)) := Table.empty
  history : Table StoredVersion.versionId := Table.empty

/-- The statements by which rooms are saved. -/
inductive NoteStatement
  | saveRoom (row : RoomEpochRow)
  | appendUpdate (row : UpdateSeqRow)
  /-- The two statements of `saveSnapshot`. -/
  | upsertSnapshot (row : SnapshotSeqRow)
  | insertVersion (version : StoredVersion)
  | deleteUpdatesThrough (vaultId fileId : String) (roomEpoch seq : ℕ)
  deriving DecidableEq, Repr

namespace GcTables

variable (tables : GcTables)

/-- The row that `saveSnapshot` leaves: on a conflict of the key, `vault_id` is not among the
columns it sets. -/
def upserted (row : SnapshotSeqRow) : SnapshotSeqRow :=
  let old := tables.snapshots.get? (row.fileId, row.roomEpoch)
  { row with vaultId := (old.map SnapshotSeqRow.vaultId).getD row.vaultId }

/-- What is inserted into the history: nothing where the id is taken. -/
def inserted : NoteStatement → List StoredVersion
  | .insertVersion version =>
    if (tables.history.get? version.versionId).isSome then [] else [version]
  | _ => []

/-- The tables after a statement. -/
def run : NoteStatement → GcTables
  | .saveRoom row => { tables with rooms := tables.rooms.set row }
  | .appendUpdate row =>
    -- `ON CONFLICT DO NOTHING`
    if (tables.updates.get? (row.fileId, row.roomEpoch, row.seq)).isSome then tables
    else { tables with updates := tables.updates.set row }
  | .upsertSnapshot row =>
    { tables with snapshots := tables.snapshots.set (tables.upserted row) }
  | .insertVersion version =>
    if (tables.history.get? version.versionId).isSome then tables
    else { tables with history := tables.history.set version }
  | .deleteUpdatesThrough vaultId fileId roomEpoch seq =>
    { tables with
      updates := tables.updates.deleteWhere fun row =>
        row.vaultId = vaultId ∧ row.fileId = fileId ∧ row.roomEpoch = roomEpoch ∧ row.seq ≤ seq }

/-- The two `EXISTS` of `is_current`. -/
def isCurrent (version : StoredVersion) : Bool :=
  (tables.rooms.rows.any fun room =>
    room.vaultId = version.vaultId ∧ room.fileId = version.fileId ∧
      room.roomEpoch = version.roomEpoch) &&
  tables.snapshots.rows.any fun snapshot =>
    snapshot.vaultId = version.vaultId ∧ snapshot.fileId = version.fileId ∧
      snapshot.roomEpoch = version.roomEpoch ∧ snapshot.compactedThroughSeq = version.seq

/-- The versions of all notes, each with whether it is current. -/
def listSnapshotHistoryForGc : List GcSnapshotRow :=
  tables.history.rows.map fun version => { version with isCurrent := tables.isCurrent version }

/-- A snapshot of an earlier incarnation of its room. -/
def superseded (snapshot : SnapshotSeqRow) : Bool :=
  tables.rooms.rows.any fun room =>
    snapshot.vaultId = room.vaultId ∧ snapshot.fileId = room.fileId ∧
      snapshot.roomEpoch < room.roomEpoch

/-- An update that a snapshot holds. -/
def compacted (update : UpdateSeqRow) : Bool :=
  tables.snapshots.rows.any fun snapshot =>
    update.vaultId = snapshot.vaultId ∧ update.fileId = snapshot.fileId ∧
      update.roomEpoch = snapshot.roomEpoch ∧ update.seq ≤ snapshot.compactedThroughSeq

/-- The statements of a run of the collector. -/
def execute : GcPhase → GcTables × GcAnswer
  | .listSnapshotHistoryForGc => (tables, .rows tables.listSnapshotHistoryForGc)
  | .pruneSnapshotHistory _ versionIds =>
    ({ tables with
        history := tables.history.deleteWhere fun version => version.versionId ∈ versionIds },
      .count (tables.history.rows.countP fun version => version.versionId ∈ versionIds))
  | .supersededSnapshots _ _ =>
    ({ tables with snapshots := tables.snapshots.deleteWhere tables.superseded },
      .count (tables.snapshots.rows.countP tables.superseded))
  | .compactedUpdates _ _ _ =>
    ({ tables with updates := tables.updates.deleteWhere tables.compacted },
      .count (tables.updates.rows.countP tables.compacted))

end GcTables

/-! ### Servers -/

/-- The servers have a job each; `saved` is every version that was ever inserted. -/
structure GcWorld where
  tables : GcTables := {}
  saved : List StoredVersion := []
  jobs : ℕ → YjsGcJob := fun _ => {}

/-- A statement is answered, or carried out without an answer, or it fails. -/
inductive StatementOutcome
  | answered
  | lost
  | failed
  deriving DecidableEq, Repr

/-- What happens: statements of the rooms, calls on the jobs, and the statements of their
runs. -/
inductive GcEvent
  | note (statement : NoteStatement)
  | call (job : ℕ) (call : GcJobCall)
  | statement (job run : ℕ) (outcome : StatementOutcome)
  /-- A server dies, and one takes its place. -/
  | dies (job : ℕ)
  deriving DecidableEq, Repr

section

variable (locale : Collation) (retainedVersionsPerFile : ℕ) (intervalMs : ℤ)

/-- The statement that a run waits for. -/
def GcWorld.statement (w : GcWorld) (job run : ℕ) (outcome : StatementOutcome) : GcWorld :=
  match (w.jobs job).runs[run]? with
  | none => w
  | some going =>
    let (tables, answer) := w.tables.execute going.phase
    { w with
      tables := if outcome = .failed then w.tables else tables
      jobs := Function.update w.jobs job ((w.jobs job).answered locale retainedVersionsPerFile run
        (if outcome = .answered then answer else .failed)) }

/-- The servers and the tables after an event. -/
def gcStep (w : GcWorld) : GcEvent → GcWorld
  | .note statement =>
    { w with tables := w.tables.run statement, saved := w.saved ++ w.tables.inserted statement }
  | .call job call =>
    { w with jobs := Function.update w.jobs job ((w.jobs job).call intervalMs call) }
  | .statement job run outcome => w.statement locale retainedVersionsPerFile job run outcome
  | .dies job => { w with jobs := Function.update w.jobs job {} }

end

/-! ### What is kept -/

/-- How many versions of its note that were ever saved come before a version. -/
def newer (locale : Collation) (saved : List StoredVersion) (version : StoredVersion) : ℕ :=
  saved.countP fun other => other.vaultId = version.vaultId ∧ other.fileId = version.fileId ∧
    compareVersionsDesc locale other version = .lt

/-- The versions among the rows that were not current. -/
def supersededVersions (rows : List GcSnapshotRow) : List StoredVersion :=
  (rows.filter (!·.isCurrent)).map GcSnapshotRow.toStoredVersion

/-- The rows that a run has read whose pruning is over. -/
def GcPhase.pruned : GcPhase → Option (List GcSnapshotRow)
  | .supersededSnapshots rows _ => some rows
  | .compactedUpdates rows _ _ => some rows
  | _ => none

/-- A run waits for a statement. -/
def GcWorld.Waits (w : GcWorld) (phase : GcPhase) : Prop :=
  ∃ job, ∃ run ∈ (w.jobs job).runs, run.phase = phase

/-- No more is left of the versions that were not current than was asked for. -/
def FewLeft (retainedVersionsPerFile : ℕ) (history : List StoredVersion)
    (rows : List GcSnapshotRow) : Prop :=
  ∀ vaultId fileId, (history.countP fun version => version.vaultId = vaultId ∧
    version.fileId = fileId ∧ version ∈ supersededVersions rows) ≤ retainedVersionsPerFile

/-- A version that was saved is in the history unless enough versions of its note are newer.  From
its pruning on, a run leaves of each note no more of the versions that were not current when it read
them. -/
structure HistoryKept (locale : Collation) (retainedVersionsPerFile : ℕ) (w : GcWorld) : Prop where
  newest : ∀ version ∈ w.saved, newer locale w.saved version < retainedVersionsPerFile →
    version ∈ w.tables.history.rows
  few : ∀ phase, w.Waits phase → ∀ rows ∈ phase.pruned,
    FewLeft retainedVersionsPerFile w.tables.history.rows rows

/-- The version that a room was last saved as is in the history. -/
def KeepsCurrent (w : GcWorld) : Prop :=
  ∀ version ∈ w.saved, w.tables.isCurrent version = true → version ∈ w.tables.history.rows

/-- The id of a version is a new one, and those of its note have no colon. -/
def Fresh (w : GcWorld) : GcEvent → Prop
  | .note (.insertVersion version) =>
    version.versionId ∉ w.saved.map StoredVersion.versionId ∧
      ':' ∉ version.vaultId.toList ∧ ':' ∉ version.fileId.toList
  | _ => True

instance (w : GcWorld) : (event : GcEvent) → Decidable (Fresh w event)
  | .note (.insertVersion _) => inferInstanceAs (Decidable (_ ∧ _ ∧ _))
  | .note (.saveRoom _) | .note (.appendUpdate _) | .note (.upsertSnapshot _)
  | .note (.deleteUpdatesThrough _ _ _ _) | .call _ _ | .statement _ _ _ | .dies _ => isTrue trivial

/-- The room of the version is in a later incarnation, or in that of the version and its snapshot
holds the updates up to this one. -/
def GcTables.Beyond (tables : GcTables) (version : StoredVersion) (seq : ℕ) : Prop :=
  ∃ room ∈ tables.rooms.rows, room.vaultId = version.vaultId ∧ room.fileId = version.fileId ∧
    (version.roomEpoch < room.roomEpoch ∨ version.roomEpoch = room.roomEpoch ∧
      ∃ snapshot ∈ tables.snapshots.rows, snapshot.vaultId = version.vaultId ∧
        snapshot.fileId = version.fileId ∧ snapshot.roomEpoch = version.roomEpoch ∧
        seq ≤ snapshot.compactedThroughSeq)

instance (tables : GcTables) (version : StoredVersion) (seq : ℕ) :
    Decidable (tables.Beyond version seq) :=
  inferInstanceAs (Decidable (∃ room ∈ tables.rooms.rows, _ ∧ _ ∧ (_ ∨ _ ∧
    ∃ snapshot ∈ tables.snapshots.rows, _ ∧ _ ∧ _ ∧ _)))

/-- No room goes back to an earlier incarnation, nor its snapshot to an earlier update; a version is
inserted after its snapshot, and that after its room. -/
def Onward (w : GcWorld) : GcEvent → Prop
  | .note (.saveRoom row) => ∀ old ∈ w.tables.rooms.get? row.fileId,
      old.vaultId = row.vaultId ∧ old.roomEpoch ≤ row.roomEpoch
  | .note (.upsertSnapshot row) => ∀ old ∈ w.tables.snapshots.get? (row.fileId, row.roomEpoch),
      old.compactedThroughSeq ≤ row.compactedThroughSeq
  | .note (.insertVersion version) => w.tables.Beyond version version.seq
  | _ => True

instance (w : GcWorld) : (event : GcEvent) → Decidable (Onward w event)
  | .note (.saveRoom _) => inferInstanceAs (Decidable (∀ old ∈ (_ : Option RoomEpochRow), _ ∧ _))
  | .note (.upsertSnapshot _) =>
    inferInstanceAs (Decidable (∀ old ∈ (_ : Option SnapshotSeqRow), _ ≤ _))
  | .note (.insertVersion version) =>
    inferInstanceAs (Decidable (w.tables.Beyond version version.seq))
  | .note (.appendUpdate _) | .note (.deleteUpdatesThrough _ _ _ _) | .call _ _
  | .statement _ _ _ | .dies _ => isTrue trivial

/-- A version of a note is saved. -/
def sampleSave (versionId : String) (through : ℕ) : List GcEvent :=
  [.note (.upsertSnapshot
      { vaultId := "v", fileId := "f", roomEpoch := 1, compactedThroughSeq := through }),
    .note (.insertVersion
      { versionId, vaultId := "v", fileId := "f", roomEpoch := 1, seq := through
        createdAt := through, reason := .cadence })]

/-- Three versions of a note are saved, of which the job reads them all, and then one more. -/
def sampleCollection : List GcEvent :=
  [.note (.saveRoom { vaultId := "v", fileId := "f", roomEpoch := 1 }), .call 0 .start] ++
    sampleSave "a" 0 ++ sampleSave "b" 1 ++ sampleSave "c" 2 ++
    [.call 0 (.fires 0), .statement 0 0 .answered] ++ sampleSave "d" 3 ++
    [.statement 0 0 .answered, .statement 0 0 .answered, .statement 0 0 .answered]

/-! ### What a step does -/

section

variable {locale : Collation} {retainedVersionsPerFile : ℕ} {intervalMs : ℤ} {job : YjsGcJob}
  {w w' : GcWorld}

theorem runs_schedule (job : YjsGcJob) : job.schedule.runs = job.runs := by
  unfold YjsGcJob.schedule
  split <;> rfl

theorem mem_runs_runOnce (job : YjsGcJob) {fromTimer : Bool} {run : GcRun}
    (h : run ∈ (job.runOnce fromTimer).runs) :
    run ∈ job.runs ∨ run.phase = .listSnapshotHistoryForGc := by
  unfold YjsGcJob.runOnce at h
  split at h
  · exact Or.inl h
  · rcases List.mem_append.mp h with hold | hnew
    · exact Or.inl hold
    · exact Or.inr (congrArg GcRun.phase (List.mem_singleton.mp hnew))

/-- A run that a call has begun reads the versions first. -/
theorem mem_runs_call {call : GcJobCall} {run : GcRun} (h : run ∈ (job.call intervalMs call).runs) :
    run ∈ job.runs ∨ run.phase = .listSnapshotHistoryForGc := by
  cases call with
  | start =>
    unfold YjsGcJob.call YjsGcJob.start at h
    dsimp only at h
    split at h
    · exact Or.inl h
    · exact Or.inl (runs_schedule job ▸ h)
  | runOnce => exact mem_runs_runOnce job h
  | fires timer =>
    unfold YjsGcJob.call YjsGcJob.fires at h
    dsimp only at h
    split at h
    · exact mem_runs_runOnce { job with timers := job.timers.erase timer, timer := none } h
    · exact Or.inl h
  | settled =>
    unfold YjsGcJob.call YjsGcJob.settled at h
    dsimp only at h
    split at h
    · exact Or.inl h
    · rw [runs_schedule] at h
      exact Or.inl h
  | stop =>
    unfold YjsGcJob.call YjsGcJob.poll at h
    dsimp only at h
    split at h <;> exact Or.inl h
  | poll =>
    unfold YjsGcJob.call YjsGcJob.poll at h
    dsimp only at h
    split at h <;> exact Or.inl h

/-- An answer only leads the run on that waits for it. -/
theorem mem_runs_answered {i : ℕ} {answer : GcAnswer} {run : GcRun}
    (h : run ∈ (job.answered locale retainedVersionsPerFile i answer).runs) :
    run ∈ job.runs ∨ ∃ going ∈ job.runs[i]?,
      going.phase.answered locale retainedVersionsPerFile answer = .inl run.phase := by
  unfold YjsGcJob.answered at h
  split at h
  · exact Or.inl h
  · next going hgoing =>
    split at h
    · next phase hphase =>
      rcases List.mem_or_eq_of_mem_set h with hold | rfl
      · exact Or.inl hold
      · exact Or.inr ⟨going, hgoing, hphase⟩
    · exact Or.inl (List.mem_of_mem_eraseIdx h)

/-- The runs of the other jobs wait for what they waited for. -/
theorem GcWorld.Waits.of_update {i : ℕ} {phase : GcPhase}
    (hjobs : w'.jobs = Function.update w.jobs i job) (h : w'.Waits phase) :
    w.Waits phase ∨ ∃ run ∈ job.runs, run.phase = phase := by
  obtain ⟨j, run, hrun, hphase⟩ := h
  rw [hjobs] at hrun
  by_cases hj : j = i
  · subst hj
    rw [Function.update_self] at hrun
    exact Or.inr ⟨run, hrun, hphase⟩
  · rw [Function.update_of_ne hj] at hrun
    exact Or.inl ⟨j, run, hrun, hphase⟩

theorem answered_failed (locale : Collation) (retainedVersionsPerFile : ℕ) (phase : GcPhase) :
    phase.answered locale retainedVersionsPerFile .failed = .inr none := by
  cases phase <;> rfl

/-- Nothing is stored differently, and a run that was not there begins. -/
structure Idle (w w' : GcWorld) : Prop where
  tables : w'.tables = w.tables
  saved : w'.saved = w.saved
  waits : ∀ phase, w'.Waits phase → w.Waits phase ∨ phase = .listSnapshotHistoryForGc

/-- The statement of a run is carried out, and may lead the run on. -/
structure Executed (locale : Collation) (retainedVersionsPerFile : ℕ) (phase : GcPhase)
    (w w' : GcWorld) : Prop where
  waiting : w.Waits phase
  tables : w'.tables = (w.tables.execute phase).1
  saved : w'.saved = w.saved
  waits : ∀ next, w'.Waits next → w.Waits next ∨
    phase.answered locale retainedVersionsPerFile (w.tables.execute phase).2 = .inl next

/-- **What a step does**: a note is saved, or a job goes on without its statement, or with it. -/
theorem gcStep_cases (locale : Collation) (retainedVersionsPerFile : ℕ) (intervalMs : ℤ)
    (w : GcWorld) (event : GcEvent) :
    (∃ statement, event = .note statement) ∨
      Idle w (gcStep locale retainedVersionsPerFile intervalMs w event) ∨
      ∃ phase, Executed locale retainedVersionsPerFile phase w
        (gcStep locale retainedVersionsPerFile intervalMs w event) := by
  cases event with
  | note statement => exact Or.inl ⟨statement, rfl⟩
  | call i call =>
    refine Or.inr (Or.inl ⟨rfl, rfl, fun phase hwaits => ?_⟩)
    rcases hwaits.of_update rfl with hold | ⟨run, hrun, rfl⟩
    · exact Or.inl hold
    · exact (mem_runs_call hrun).imp (fun hold => ⟨i, run, hold, rfl⟩) id
  | dies i =>
    refine Or.inr (Or.inl ⟨rfl, rfl, fun phase hwaits => ?_⟩)
    rcases hwaits.of_update rfl with hold | ⟨run, hrun, -⟩
    · exact Or.inl hold
    · exact absurd hrun List.not_mem_nil
  | statement i run outcome =>
    simp only [gcStep, GcWorld.statement]
    split
    · exact Or.inr (Or.inl ⟨rfl, rfl, fun _ => Or.inl⟩)
    · next going hgoing =>
      have hmem : going ∈ (w.jobs i).runs := List.mem_of_getElem? hgoing
      -- a phase that is waited for was waited for before, or follows the one that ran
      have hlast : ∀ {answer next}, (∃ run' ∈ ((w.jobs i).answered locale retainedVersionsPerFile
          run answer).runs, run'.phase = next) → w.Waits next ∨
            going.phase.answered locale retainedVersionsPerFile answer = .inl next := by
        rintro answer next ⟨run', hrun', rfl⟩
        rcases mem_runs_answered hrun' with hold | ⟨going', hgoing', hnext⟩
        · exact Or.inl ⟨i, run', hold, rfl⟩
        · obtain rfl : going = going' := Option.some.inj (hgoing.symm.trans hgoing')
          exact Or.inr hnext
      have hover : ∀ {next}, going.phase.answered locale retainedVersionsPerFile .failed
          = .inl next → False := by
        intro next hnext
        rw [answered_failed] at hnext
        cases hnext
      cases outcome with
      | answered =>
        refine Or.inr (Or.inr ⟨going.phase, ⟨i, going, hmem, rfl⟩, rfl, rfl, fun next hwaits => ?_⟩)
        exact (hwaits.of_update rfl).elim Or.inl hlast
      | lost =>
        refine Or.inr (Or.inr ⟨going.phase, ⟨i, going, hmem, rfl⟩, rfl, rfl, fun next hwaits => ?_⟩)
        exact (hwaits.of_update rfl).elim Or.inl fun hnext => (hlast hnext).imp id
          fun hfailed => (hover hfailed).elim
      | failed =>
        refine Or.inr (Or.inl ⟨rfl, rfl, fun next hwaits => ?_⟩)
        exact (hwaits.of_update rfl).elim Or.inl fun hnext => (hlast hnext).imp id
          fun hfailed => (hover hfailed).elim

end

/-! ### Reading and deleting -/

/-- The ids of versions are distinct, and those of their notes have no colon; the history is a part
of what was saved. -/
structure Traceable (w : GcWorld) : Prop where
  distinct : (w.saved.map StoredVersion.versionId).Nodup
  plain : ∀ version ∈ w.saved, ':' ∉ version.vaultId.toList ∧ ':' ∉ version.fileId.toList
  authentic : ∀ version ∈ w.tables.history.rows, version ∈ w.saved

/-- The rows were read from what was saved. -/
structure ReadFrom (saved : List StoredVersion) (rows : List GcSnapshotRow) : Prop where
  saved : ∀ row ∈ rows, row.toStoredVersion ∈ saved
  distinct : (versionIds rows).Nodup
  plain : PlainIds rows

section

variable {locale : Collation} {retainedVersionsPerFile : ℕ} {intervalMs : ℤ} {w w' : GcWorld}
  {saved more : List StoredVersion} {rows : List GcSnapshotRow} {version : StoredVersion}

theorem Traceable.eq_of_versionId (h : Traceable w) {other : StoredVersion}
    (hversion : version ∈ w.saved) (hother : other ∈ w.saved)
    (hid : version.versionId = other.versionId) : version = other :=
  List.inj_on_of_nodup_map h.distinct hversion hother hid

theorem ReadFrom.append (h : ReadFrom saved rows) (more : List StoredVersion) :
    ReadFrom (saved ++ more) rows :=
  ⟨fun row hrow => List.mem_append_left _ (h.saved row hrow), h.distinct, h.plain⟩

theorem versionIds_listSnapshotHistoryForGc (tables : GcTables) :
    versionIds tables.listSnapshotHistoryForGc
      = tables.history.rows.map StoredVersion.versionId := by
  simp [versionIds, GcTables.listSnapshotHistoryForGc]

theorem Traceable.readFrom (h : Traceable w) :
    ReadFrom w.saved w.tables.listSnapshotHistoryForGc where
  saved := by
    intro row hrow
    obtain ⟨version, hversion, rfl⟩ := List.mem_map.mp hrow
    exact h.authentic version hversion
  distinct := by
    rw [versionIds_listSnapshotHistoryForGc]
    exact w.tables.history.nodup
  plain := by
    intro row hrow
    obtain ⟨version, hversion, rfl⟩ := List.mem_map.mp hrow
    exact h.plain version (h.authentic version hversion)

theorem isCurrent_of_mem_list {tables : GcTables} {row : GcSnapshotRow}
    (h : row ∈ tables.listSnapshotHistoryForGc) :
    row.isCurrent = tables.isCurrent row.toStoredVersion := by
  obtain ⟨version, -, rfl⟩ := List.mem_map.mp h
  rfl

/-- A version whose id is on the list is one of the rows that are pruned. -/
theorem Traceable.pruned_of_mem (h : Traceable w) (hread : ReadFrom w.saved rows)
    (hversion : version ∈ w.saved)
    (hid : version.versionId ∈
      (selectYjsHistoryRetention locale rows retainedVersionsPerFile).pruneVersionIds) :
    ∃ row ∈ rows, row.toStoredVersion = version ∧
      row ∈ prunedRows locale retainedVersionsPerFile (rowsOf row.vaultId row.fileId rows) := by
  have hids : version.versionId ∈ versionIds rows :=
    (perm_selectYjsHistoryRetention locale retainedVersionsPerFile hread.distinct).mem_iff.mp
      (List.mem_append_right _ hid)
  obtain ⟨row, hrow, hsame⟩ := List.mem_map.mp hids
  have hversion' : row.toStoredVersion = version :=
    h.eq_of_versionId (hread.saved row hrow) hversion hsame
  refine ⟨row, hrow, hversion', (mem_pruneVersionIds_iff hread.plain hread.distinct hrow).mp ?_⟩
  rw [hsame]
  exact hid

/-- The versions of rows with distinct ids are distinct. -/
theorem nodup_toStoredVersion (h : (versionIds rows).Nodup) :
    (rows.map GcSnapshotRow.toStoredVersion).Nodup :=
  List.Nodup.of_map StoredVersion.versionId (by rwa [List.map_map])

theorem newer_le_append (locale : Collation) (saved more : List StoredVersion)
    (version : StoredVersion) : newer locale saved version ≤ newer locale (saved ++ more) version :=
  (List.sublist_append_left saved more).countP_le

/-- **Enough versions are newer than one that is pruned.** -/
theorem le_newer_of_pruned (htotal : locale.IsTotal) (hread : ReadFrom saved rows)
    {row : GcSnapshotRow}
    (hpruned : row ∈ prunedRows locale retainedVersionsPerFile
      (rowsOf row.vaultId row.fileId rows)) :
    retainedVersionsPerFile ≤ newer locale saved row.toStoredVersion := by
  set group := rowsOf row.vaultId row.fileId rows with hgroup
  set first := (superseded locale group).take retainedVersionsPerFile with hfirst
  have hids : (versionIds group).Nodup := hread.distinct.sublist (List.filter_sublist.map _)
  have hlength : first.length = retainedVersionsPerFile := by
    have hlong : (superseded locale group).length > retainedVersionsPerFile := by
      by_contra hshort
      have hnone : prunedRows locale retainedVersionsPerFile group = [] :=
        List.drop_eq_nil_of_le (by omega)
      rw [hnone] at hpruned
      cases hpruned
    rw [hfirst, List.length_take]
    omega
  have hfirstIds : (versionIds first).Nodup := by
    have hsorted : (versionIds (superseded locale group)).Nodup :=
      (((perm_sortVersions group).map _).nodup_iff.mpr hids).sublist (List.filter_sublist.map _)
    exact hsorted.sublist ((List.take_sublist _ _).map _)
  -- each of the first rows is a newer version of the note
  have hnewer : ∀ kept ∈ first, kept.toStoredVersion ∈ saved.filter fun other =>
      other.vaultId = row.vaultId ∧ other.fileId = row.fileId ∧
        compareVersionsDesc locale other row.toStoredVersion = .lt := by
    intro kept hkept
    have hmem : kept ∈ group := mem_sortVersions.mp
      (List.mem_filter.mp (List.mem_of_mem_take hkept)).1
    obtain ⟨hrow, hnote⟩ := List.mem_filter.mp hmem
    obtain ⟨hvault, hfile⟩ := of_decide_eq_true hnote
    refine List.mem_filter.mpr ⟨hread.saved kept hrow, decide_eq_true ⟨hvault, hfile, ?_⟩⟩
    exact lt_of_mem_superseded htotal hids hkept hpruned
  have hsub : (first.map GcSnapshotRow.toStoredVersion).Subperm _ :=
    (nodup_toStoredVersion hfirstIds).subperm fun other hother => by
      obtain ⟨kept, hkept, rfl⟩ := List.mem_map.mp hother
      exact hnewer kept hkept
  calc retainedVersionsPerFile = (first.map GcSnapshotRow.toStoredVersion).length := by
        rw [List.length_map, hlength]
    _ ≤ _ := hsub.length_le
    _ = newer locale saved row.toStoredVersion := by
        rw [newer, List.countP_eq_length_filter]

/-- **Few of the rows that were not current are left** when the others are deleted. -/
theorem fewLeft_of_deleted (locale : Collation) (hread : ReadFrom saved rows)
    {history : List StoredVersion} (hhistory : history.Nodup)
    (hdeleted : ∀ version ∈ history, version.versionId ∉
      (selectYjsHistoryRetention locale rows retainedVersionsPerFile).pruneVersionIds) :
    FewLeft retainedVersionsPerFile history rows := by
  intro vaultId fileId
  set first := (superseded locale (rowsOf vaultId fileId rows)).take retainedVersionsPerFile
    with hfirst
  have hsub : (history.filter fun version => version.vaultId = vaultId ∧ version.fileId = fileId ∧
      version ∈ supersededVersions rows).Subperm (first.map GcSnapshotRow.toStoredVersion) := by
    refine (hhistory.sublist List.filter_sublist).subperm fun version hversion => ?_
    obtain ⟨hmem, hleft⟩ := List.mem_filter.mp hversion
    obtain ⟨rfl, rfl, hlisted⟩ := of_decide_eq_true hleft
    obtain ⟨row, hrow, rfl⟩ := List.mem_map.mp hlisted
    obtain ⟨hread', hcurrent⟩ := List.mem_filter.mp hrow
    refine List.mem_map_of_mem ?_
    have hkept := (mem_pruneVersionIds_iff hread.plain hread.distinct hread').not.mp
      (hdeleted _ hmem)
    have hin : row ∈ superseded locale (rowsOf row.vaultId row.fileId rows) :=
      List.mem_filter.mpr ⟨mem_sortVersions.mpr (mem_rowsOf_self hread'), hcurrent⟩
    rw [← List.take_append_drop retainedVersionsPerFile (superseded locale _)] at hin
    exact (List.mem_append.mp hin).resolve_right hkept
  rw [List.countP_eq_length_filter]
  calc _ ≤ (first.map GcSnapshotRow.toStoredVersion).length := hsub.length_le
    _ = first.length := List.length_map _
    _ ≤ retainedVersionsPerFile := List.length_take_le _ _

end

/-! ### Saving a note -/

section

variable {locale : Collation} {retainedVersionsPerFile : ℕ} {intervalMs : ℤ} {w w' : GcWorld}

/-- A statement of a room inserts a version, or leaves the history as it is. -/
theorem GcTables.run_history (tables : GcTables) (statement : NoteStatement) :
    (tables.inserted statement = [] ∧ (tables.run statement).history = tables.history) ∨
      ∃ version, statement = .insertVersion version ∧ tables.inserted statement = [version] ∧
        (tables.run statement).history.rows = tables.history.rows ++ [version] := by
  cases statement with
  | insertVersion version =>
    simp only [GcTables.inserted, GcTables.run]
    split
    · exact Or.inl ⟨rfl, rfl⟩
    · next hnew =>
      refine Or.inr ⟨version, rfl, rfl, Table.setRows_of_fresh ?_⟩
      exact Table.get?_eq_none_iff.mp (Option.not_isSome_iff_eq_none.mp hnew)
  | appendUpdate row =>
    simp only [GcTables.run]
    split <;> exact Or.inl ⟨rfl, rfl⟩
  | _ => exact Or.inl ⟨rfl, rfl⟩

/-- A note that is saved has a new version, or none. -/
theorem gcStep_note (w : GcWorld) (statement : NoteStatement) :
    ((gcStep locale retainedVersionsPerFile intervalMs w (.note statement)).saved = w.saved ∧
      (gcStep locale retainedVersionsPerFile intervalMs w (.note statement)).tables.history
        = w.tables.history) ∨
      ∃ version, statement = .insertVersion version ∧
        (gcStep locale retainedVersionsPerFile intervalMs w (.note statement)).saved
          = w.saved ++ [version] ∧
        (gcStep locale retainedVersionsPerFile intervalMs w (.note statement)).tables.history.rows
          = w.tables.history.rows ++ [version] := by
  rcases w.tables.run_history statement with ⟨hnone, hhistory⟩ | ⟨version, hversion, hone, hhistory⟩
  · refine Or.inl ⟨?_, hhistory⟩
    show w.saved ++ w.tables.inserted statement = w.saved
    rw [hnone, List.append_nil]
  · refine Or.inr ⟨version, hversion, ?_, hhistory⟩
    show w.saved ++ w.tables.inserted statement = w.saved ++ [version]
    rw [hone]

theorem Traceable.note (h : Traceable w) {statement : NoteStatement}
    (hfresh : Fresh w (.note statement)) :
    Traceable (gcStep locale retainedVersionsPerFile intervalMs w (.note statement)) := by
  rcases gcStep_note w statement with ⟨hsaved, hhistory⟩ | ⟨version, rfl, hsaved, hhistory⟩
  · constructor <;> rw [hsaved]
    · exact h.distinct
    · exact h.plain
    · rw [hhistory]
      exact h.authentic
  · obtain ⟨hid, hplain⟩ := hfresh
    constructor <;> rw [hsaved]
    · rw [List.map_append, List.map_singleton]
      exact h.distinct.append (List.nodup_singleton _) (by simpa using hid)
    · intro other hother
      rcases List.mem_append.mp hother with hold | hnew
      · exact h.plain other hold
      · rw [List.mem_singleton.mp hnew]
        exact hplain
    · rw [hhistory]
      intro other hother
      rcases List.mem_append.mp hother with hold | hnew
      · exact List.mem_append_left _ (h.authentic other hold)
      · exact List.mem_append_right _ hnew

theorem Traceable.idle (h : Traceable w) (hidle : Idle w w') : Traceable w' where
  distinct := hidle.saved ▸ h.distinct
  plain := hidle.saved ▸ h.plain
  authentic := by
    rw [hidle.tables, hidle.saved]
    exact h.authentic

/-- The history only loses versions by a statement of a run. -/
theorem history_execute_sublist (tables : GcTables) (phase : GcPhase) :
    (tables.execute phase).1.history.rows.Sublist tables.history.rows := by
  cases phase with
  | pruneSnapshotHistory rows versionIds => exact List.filter_sublist
  | _ => exact List.Sublist.refl _

theorem Traceable.executed {phase : GcPhase} (h : Traceable w)
    (hexecuted : Executed locale retainedVersionsPerFile phase w w') : Traceable w' where
  distinct := hexecuted.saved ▸ h.distinct
  plain := hexecuted.saved ▸ h.plain
  authentic := by
    rw [hexecuted.tables, hexecuted.saved]
    exact fun version hversion =>
      h.authentic version ((history_execute_sublist w.tables phase).subset hversion)

end

/-! ### The newest versions -/

/-- What a run that waits for its statement has read, and what it may delete or has deleted. -/
def Fits (locale : Collation) (retainedVersionsPerFile : ℕ) (saved history : List StoredVersion) :
    GcPhase → Prop
  | .listSnapshotHistoryForGc => True
  | .pruneSnapshotHistory rows versionIds => ReadFrom saved rows ∧
      versionIds = (selectYjsHistoryRetention locale rows retainedVersionsPerFile).pruneVersionIds
  | .supersededSnapshots rows _ => ReadFrom saved rows ∧
      FewLeft retainedVersionsPerFile history rows
  | .compactedUpdates rows _ _ => ReadFrom saved rows ∧
      FewLeft retainedVersionsPerFile history rows

/-- Enough versions are newer than one that is missing. -/
structure Collected (locale : Collation) (retainedVersionsPerFile : ℕ) (w : GcWorld) : Prop
    extends Traceable w where
  newest : ∀ version ∈ w.saved, version ∉ w.tables.history.rows →
    retainedVersionsPerFile ≤ newer locale w.saved version
  fits : ∀ phase, w.Waits phase →
    Fits locale retainedVersionsPerFile w.saved w.tables.history.rows phase

section

variable {locale : Collation} {retainedVersionsPerFile : ℕ} {intervalMs : ℤ} {w w' : GcWorld}
  {saved history : List StoredVersion} {rows : List GcSnapshotRow} {phase : GcPhase}

theorem FewLeft.sublist (h : FewLeft retainedVersionsPerFile history rows)
    {history' : List StoredVersion} (hsub : history'.Sublist history) :
    FewLeft retainedVersionsPerFile history' rows :=
  fun vaultId fileId => hsub.countP_le.trans (h vaultId fileId)

/-- A version that is not among those that were read is not counted. -/
theorem FewLeft.append (h : FewLeft retainedVersionsPerFile history rows) {version : StoredVersion}
    (hnew : version ∉ supersededVersions rows) :
    FewLeft retainedVersionsPerFile (history ++ [version]) rows := by
  intro vaultId fileId
  rw [List.countP_append, List.countP_singleton, if_neg (by simp [hnew]), Nat.add_zero]
  exact h vaultId fileId

theorem Fits.sublist (h : Fits locale retainedVersionsPerFile saved history phase)
    {history' : List StoredVersion} (hsub : history'.Sublist history) :
    Fits locale retainedVersionsPerFile saved history' phase := by
  cases phase with
  | listSnapshotHistoryForGc => trivial
  | pruneSnapshotHistory rows versionIds => exact h
  | supersededSnapshots rows _ => exact ⟨h.1, h.2.sublist hsub⟩
  | compactedUpdates rows _ _ => exact ⟨h.1, h.2.sublist hsub⟩

theorem Fits.append (h : Fits locale retainedVersionsPerFile saved history phase)
    {version : StoredVersion} (hnew : version ∉ saved) :
    Fits locale retainedVersionsPerFile (saved ++ [version]) (history ++ [version]) phase := by
  have hlisted : ∀ {rows}, ReadFrom saved rows → version ∉ supersededVersions rows := by
    intro rows hread hmem
    obtain ⟨row, hrow, rfl⟩ := List.mem_map.mp hmem
    exact hnew (hread.saved row (List.mem_filter.mp hrow).1)
  cases phase with
  | listSnapshotHistoryForGc => trivial
  | pruneSnapshotHistory rows versionIds => exact ⟨h.1.append _, h.2⟩
  | supersededSnapshots rows _ => exact ⟨h.1.append _, h.2.append (hlisted h.1)⟩
  | compactedUpdates rows _ _ => exact ⟨h.1.append _, h.2.append (hlisted h.1)⟩

theorem Collected.note (h : Collected locale retainedVersionsPerFile w)
    {statement : NoteStatement} (hfresh : Fresh w (.note statement)) :
    Collected locale retainedVersionsPerFile
      (gcStep locale retainedVersionsPerFile intervalMs w (.note statement)) := by
  have htraceable : Traceable
      (gcStep locale retainedVersionsPerFile intervalMs w (.note statement)) :=
    h.toTraceable.note hfresh
  rcases gcStep_note w statement with ⟨hsaved, hhistory⟩ | ⟨version, rfl, hsaved, hhistory⟩
  · refine ⟨htraceable, ?_, fun phase hwaits => ?_⟩ <;> rw [hsaved, hhistory]
    · exact h.newest
    · exact h.fits phase hwaits
  · refine ⟨htraceable, ?_, fun phase hwaits => ?_⟩ <;> rw [hsaved, hhistory]
    · intro other hother hmissing
      rw [List.mem_append, not_or] at hmissing
      have hold : other ∈ w.saved := (List.mem_append.mp hother).resolve_right hmissing.2
      exact (h.newest other hold hmissing.1).trans
        (newer_le_append locale w.saved [version] other)
    · -- the version is none of those that the run has read
      exact (h.fits phase hwaits).append fun hmem => hfresh.1 (List.mem_map_of_mem hmem)

theorem Collected.idle (h : Collected locale retainedVersionsPerFile w) (hidle : Idle w w') :
    Collected locale retainedVersionsPerFile w' where
  toTraceable := h.toTraceable.idle hidle
  newest := by
    rw [hidle.saved, hidle.tables]
    exact h.newest
  fits := by
    intro phase hwaits
    rw [hidle.saved, hidle.tables]
    rcases hidle.waits phase hwaits with hold | rfl
    · exact h.fits phase hold
    · trivial

/-- **Where the statement of a run leads.** -/
theorem Fits.next {next : GcPhase} (htraceable : Traceable w)
    (h : Fits locale retainedVersionsPerFile w.saved w.tables.history.rows phase)
    (hnext : phase.answered locale retainedVersionsPerFile (w.tables.execute phase).2 = .inl next) :
    Fits locale retainedVersionsPerFile w.saved (w.tables.execute phase).1.history.rows next := by
  have hnodup : w.tables.history.rows.Nodup := List.Nodup.of_map _ w.tables.history.nodup
  cases phase with
  | listSnapshotHistoryForGc =>
    have hread := htraceable.readFrom
    simp only [GcTables.execute, GcPhase.answered] at hnext
    split at hnext
    · next hempty =>
      obtain rfl := Sum.inl.inj hnext
      refine ⟨hread, fewLeft_of_deleted locale hread hnodup fun version _ => ?_⟩
      rw [hempty]
      exact List.not_mem_nil
    · obtain rfl := Sum.inl.inj hnext
      exact ⟨hread, rfl⟩
  | pruneSnapshotHistory rows versionIds =>
    obtain ⟨hread, rfl⟩ := h
    obtain rfl := Sum.inl.inj hnext
    refine ⟨hread, fewLeft_of_deleted locale hread
      (hnodup.sublist List.filter_sublist) fun version hversion => ?_⟩
    exact of_decide_eq_false (Table.mem_deleteWhere_iff.mp hversion).2
  | supersededSnapshots rows historyPruned =>
    obtain rfl := Sum.inl.inj hnext
    exact h
  | compactedUpdates rows historyPruned snapshotsPruned => cases hnext

/-- What is deleted was asked for. -/
theorem GcTables.mem_versionIds_of_deleted {tables : GcTables} {version : StoredVersion}
    {versionIds : List String} (hthere : version ∈ tables.history.rows)
    (hmissing : version ∉
      (tables.execute (.pruneSnapshotHistory rows versionIds)).1.history.rows) :
    version.versionId ∈ versionIds := by
  by_contra hnot
  exact hmissing (Table.mem_deleteWhere_iff.mpr ⟨hthere, decide_eq_false hnot⟩)

/-- A run deletes what has enough newer versions. -/
theorem Collected.executed (htotal : locale.IsTotal)
    (h : Collected locale retainedVersionsPerFile w)
    (hexecuted : Executed locale retainedVersionsPerFile phase w w') :
    Collected locale retainedVersionsPerFile w' where
  toTraceable := h.toTraceable.executed hexecuted
  newest := by
    rw [hexecuted.saved, hexecuted.tables]
    intro version hversion hmissing
    by_cases hthere : version ∈ w.tables.history.rows
    · -- it is deleted now
      have hfits := h.fits phase hexecuted.waiting
      cases phase with
      | pruneSnapshotHistory rows versionIds =>
        obtain ⟨hread, rfl⟩ := hfits
        have hid := GcTables.mem_versionIds_of_deleted hthere hmissing
        obtain ⟨row, -, rfl, hpruned⟩ := h.pruned_of_mem hread hversion hid
        exact le_newer_of_pruned htotal hread hpruned
      | _ => exact absurd hthere hmissing
    · exact h.newest version hversion hthere
  fits := by
    rw [hexecuted.saved, hexecuted.tables]
    intro next hwaits
    rcases hexecuted.waits next hwaits with hold | hnext
    · exact (h.fits next hold).sublist (history_execute_sublist w.tables phase)
    · exact (h.fits phase hexecuted.waiting).next h.toTraceable hnext

theorem Collected.step (htotal : locale.IsTotal) (h : Collected locale retainedVersionsPerFile w)
    (event : GcEvent) (hfresh : Fresh w event) :
    Collected locale retainedVersionsPerFile
      (gcStep locale retainedVersionsPerFile intervalMs w event) := by
  rcases gcStep_cases locale retainedVersionsPerFile intervalMs w event with
    ⟨statement, rfl⟩ | hidle | ⟨phase, hexecuted⟩
  · exact h.note hfresh
  · exact h.idle hidle
  · exact h.executed htotal hexecuted

theorem Collected.historyKept (h : Collected locale retainedVersionsPerFile w) :
    HistoryKept locale retainedVersionsPerFile w where
  newest := by
    intro version hversion hfew
    by_contra hmissing
    exact absurd (h.newest version hversion hmissing) (Nat.not_le_of_lt hfew)
  few := by
    intro phase hwaits rows hpruned
    have hfits := h.fits phase hwaits
    cases phase with
    | supersededSnapshots rows' _ =>
      obtain rfl : rows' = rows := Option.some.inj hpruned
      exact hfits.2
    | compactedUpdates rows' _ _ =>
      obtain rfl : rows' = rows := Option.some.inj hpruned
      exact hfits.2
    | _ => cases hpruned

end

theorem waits_initial {phase : GcPhase} (h : GcWorld.Waits {} phase) : False := by
  obtain ⟨job, run, hrun, -⟩ := h
  cases hrun

theorem traceable_initial : Traceable {} where
  distinct := List.nodup_nil
  plain := fun _ hversion => absurd hversion List.not_mem_nil
  authentic := fun _ hversion => absurd hversion List.not_mem_nil

/-- **The newest versions of each note are in the history, whatever the servers do**, and the runs
of the collector leave few of the others. -/
theorem historyKept_run (locale : Collation) (htotal : locale.IsTotal)
    (retainedVersionsPerFile : ℕ) (intervalMs : ℤ) (es : List GcEvent)
    (hfresh : Run.EachStep (gcStep locale retainedVersionsPerFile intervalMs) Fresh {} es) :
    Run.Throughout (gcStep locale retainedVersionsPerFile intervalMs)
      (HistoryKept locale retainedVersionsPerFile) {} es := by
  have hinitial : Collected locale retainedVersionsPerFile {} :=
    ⟨traceable_initial, fun _ hversion => absurd hversion List.not_mem_nil,
      fun _ hwaits => (waits_initial hwaits).elim⟩
  exact (Run.throughout_of_invariant (fun _ event h hc => h.step htotal event hc) hinitial
    hfresh).mono fun _ h => h.historyKept

/-- The job may keep one version of the three apart from the last. -/
theorem historyKept_run_sample :
    (Run.final (gcStep codePoints 1 1000) {} sampleCollection).tables.history.rows.map
        StoredVersion.versionId = ["b", "c", "d"] ∧
      Run.Throughout (gcStep codePoints 1 1000) (HistoryKept codePoints 1) {} sampleCollection :=
  ⟨by decide +kernel,
    historyKept_run codePoints isTotal_codePoints 1 1000 sampleCollection (by decide +kernel)⟩

/-! ### The current versions -/

/-- A version that is missing, or that is to be deleted, is not current and never will be. -/
structure Onwards (locale : Collation) (retainedVersionsPerFile : ℕ) (w : GcWorld) : Prop
    extends Traceable w where
  reached : ∀ version ∈ w.saved, w.tables.Beyond version version.seq
  gone : ∀ version ∈ w.saved, version ∉ w.tables.history.rows →
    w.tables.Beyond version (version.seq + 1)
  read : ∀ rows versionIds, w.Waits (.pruneSnapshotHistory rows versionIds) →
    ReadFrom w.saved rows ∧ versionIds =
      (selectYjsHistoryRetention locale rows retainedVersionsPerFile).pruneVersionIds ∧
    ∀ row ∈ rows, row.isCurrent = false → w.tables.Beyond row.toStoredVersion (row.seq + 1)

section

variable {locale : Collation} {retainedVersionsPerFile : ℕ} {intervalMs : ℤ} {w w' : GcWorld}
  {tables tables' : GcTables} {version : StoredVersion} {seq : ℕ} {phase : GcPhase}

/-- A version that the room has left behind is not current. -/
theorem GcTables.Beyond.not_current (h : tables.Beyond version (version.seq + 1)) :
    tables.isCurrent version = false := by
  obtain ⟨room, hroom, -, hfile, hbeyond⟩ := h
  rw [Bool.eq_false_iff]
  intro hcurrent
  obtain ⟨hrooms, hsnapshots⟩ := Bool.and_eq_true_iff.mp hcurrent
  obtain ⟨room', hroom', hsame⟩ := List.any_eq_true.mp hrooms
  obtain ⟨-, hfile', hepoch'⟩ := of_decide_eq_true hsame
  obtain rfl : room' = room := Table.eq_of_key_eq hroom' hroom (hfile'.trans hfile.symm)
  rcases hbeyond with hlater | ⟨-, snapshot, hsnapshot, -, hfile, hepoch, hseq⟩
  · omega
  · obtain ⟨snapshot', hsnapshot', hsame'⟩ := List.any_eq_true.mp hsnapshots
    obtain ⟨-, hfile'', hepoch'', hseq'⟩ := of_decide_eq_true hsame'
    obtain rfl : snapshot' = snapshot := Table.eq_of_key_eq hsnapshot' hsnapshot
      (Prod.ext (hfile''.trans hfile.symm) (hepoch''.trans hepoch.symm))
    omega

/-- A version that the room has reached and that is not current is behind it. -/
theorem GcTables.Beyond.succ_of_not_current (h : tables.Beyond version version.seq)
    (hcurrent : tables.isCurrent version = false) : tables.Beyond version (version.seq + 1) := by
  obtain ⟨room, hroom, hvault, hfile, hbeyond⟩ := h
  refine ⟨room, hroom, hvault, hfile, hbeyond.imp id ?_⟩
  rintro ⟨hepoch, snapshot, hsnapshot, hvault', hfile', hepoch', hseq⟩
  refine ⟨hepoch, snapshot, hsnapshot, hvault', hfile', hepoch', ?_⟩
  by_contra hless
  have hsame : snapshot.compactedThroughSeq = version.seq := by omega
  rw [Bool.eq_false_iff] at hcurrent
  refine hcurrent (Bool.and_eq_true_iff.mpr ⟨List.any_eq_true.mpr ⟨room, hroom, ?_⟩,
    List.any_eq_true.mpr ⟨snapshot, hsnapshot, ?_⟩⟩)
  · exact decide_eq_true ⟨hvault, hfile, hepoch.symm⟩
  · exact decide_eq_true ⟨hvault', hfile', hepoch', hsame⟩

/-- Rooms that only go on stay beyond what they were beyond. -/
theorem GcTables.Beyond.note (h : w.tables.Beyond version seq) {statement : NoteStatement}
    (honward : Onward w (.note statement)) : (w.tables.run statement).Beyond version seq := by
  obtain ⟨room, hroom, hvault, hfile, hbeyond⟩ := h
  cases statement with
  | saveRoom row =>
    by_cases hrow : row.fileId = version.fileId
    · -- the row takes the place of that of the room
      obtain ⟨hvault', hepoch'⟩ := honward room
        (Table.get?_eq_some_iff.mpr ⟨hroom, hfile.trans hrow.symm⟩)
      refine ⟨row, Table.mem_set_iff.mpr (Or.inl rfl), hvault'.symm.trans hvault, hrow, ?_⟩
      rcases hbeyond with hlater | ⟨hepoch, hsnapshot⟩
      · exact Or.inl (hlater.trans_le hepoch')
      · rcases Nat.lt_or_eq_of_le hepoch' with hless | hsame
        · exact Or.inl (hepoch.trans_lt hless)
        · exact Or.inr ⟨hepoch.trans hsame, hsnapshot⟩
    · have hne : room.fileId ≠ row.fileId := fun hsame => hrow (hsame.symm.trans hfile)
      exact ⟨room, Table.mem_set_iff.mpr (Or.inr ⟨hroom, hne⟩), hvault, hfile, hbeyond⟩
  | upsertSnapshot row =>
    refine ⟨room, hroom, hvault, hfile, hbeyond.imp id ?_⟩
    rintro ⟨hepoch, snapshot, hsnapshot, hvault', hfile', hepoch', hseq⟩
    by_cases hrow : (row.fileId, row.roomEpoch) = (snapshot.fileId, snapshot.roomEpoch)
    · obtain ⟨hsameFile, hsameEpoch⟩ := Prod.mk.inj hrow
      have hold : w.tables.snapshots.get? (row.fileId, row.roomEpoch) = some snapshot :=
        Table.get?_eq_some_iff.mpr ⟨hsnapshot, hrow.symm⟩
      have hkept : (w.tables.upserted row).vaultId = snapshot.vaultId := by
        simp [GcTables.upserted, hold]
      exact ⟨hepoch, w.tables.upserted row, Table.mem_set_iff.mpr (Or.inl rfl),
        hkept.trans hvault', hsameFile.trans hfile', hsameEpoch.trans hepoch',
        hseq.trans (honward snapshot hold)⟩
    · exact ⟨hepoch, snapshot, Table.mem_set_iff.mpr (Or.inr ⟨hsnapshot, Ne.symm hrow⟩), hvault',
        hfile', hepoch', hseq⟩
  | appendUpdate row =>
    simp only [GcTables.run]
    split <;> exact ⟨room, hroom, hvault, hfile, hbeyond⟩
  | insertVersion other =>
    simp only [GcTables.run]
    split <;> exact ⟨room, hroom, hvault, hfile, hbeyond⟩
  | deleteUpdatesThrough vaultId fileId roomEpoch seq =>
    exact ⟨room, hroom, hvault, hfile, hbeyond⟩

/-- The collector deletes no snapshot of the incarnation that a room is in. -/
theorem GcTables.Beyond.execute (h : tables.Beyond version seq) (phase : GcPhase) :
    (tables.execute phase).1.Beyond version seq := by
  obtain ⟨room, hroom, hvault, hfile, hbeyond⟩ := h
  cases phase with
  | supersededSnapshots rows historyPruned =>
    refine ⟨room, hroom, hvault, hfile, hbeyond.imp id ?_⟩
    rintro ⟨hepoch, snapshot, hsnapshot, hvault', hfile', hepoch', hseq⟩
    refine ⟨hepoch, snapshot, Table.mem_deleteWhere_iff.mpr ⟨hsnapshot, ?_⟩, hvault', hfile',
      hepoch', hseq⟩
    rw [Bool.eq_false_iff]
    intro hsuperseded
    obtain ⟨other, hother, hlater⟩ := List.any_eq_true.mp hsuperseded
    obtain ⟨-, hsameFile, hless⟩ := of_decide_eq_true hlater
    obtain rfl : other = room :=
      Table.eq_of_key_eq hother hroom (hsameFile.symm.trans (hfile'.trans hfile.symm))
    omega
  | _ => exact ⟨room, hroom, hvault, hfile, hbeyond⟩

theorem Onwards.note (h : Onwards locale retainedVersionsPerFile w) {statement : NoteStatement}
    (hfresh : Fresh w (.note statement)) (honward : Onward w (.note statement)) :
    Onwards locale retainedVersionsPerFile
      (gcStep locale retainedVersionsPerFile intervalMs w (.note statement)) := by
  have htraceable : Traceable
      (gcStep locale retainedVersionsPerFile intervalMs w (.note statement)) :=
    h.toTraceable.note hfresh
  have hbeyond : ∀ {version seq}, w.tables.Beyond version seq →
      (gcStep locale retainedVersionsPerFile intervalMs w (.note statement)).tables.Beyond
        version seq := fun hversion => hversion.note honward
  have hread : ∀ {more rows versionIds}, w.Waits (.pruneSnapshotHistory rows versionIds) →
      ReadFrom (w.saved ++ more) rows ∧ versionIds =
        (selectYjsHistoryRetention locale rows retainedVersionsPerFile).pruneVersionIds ∧
      ∀ row ∈ rows, row.isCurrent = false →
        (gcStep locale retainedVersionsPerFile intervalMs w (.note statement)).tables.Beyond
          row.toStoredVersion (row.seq + 1) := by
    intro more rows versionIds hwaits
    obtain ⟨hread, hids, hrows⟩ := h.read rows versionIds hwaits
    exact ⟨hread.append more, hids, fun row hrow hcurrent => hbeyond (hrows row hrow hcurrent)⟩
  rcases gcStep_note w statement with ⟨hsaved, hhistory⟩ | ⟨version, rfl, hsaved, hhistory⟩
  · refine ⟨htraceable, ?_, ?_, fun rows versionIds hwaits => ?_⟩ <;> rw [hsaved]
    · exact fun version hversion => hbeyond (h.reached version hversion)
    · rw [hhistory]
      exact fun version hversion hmissing => hbeyond (h.gone version hversion hmissing)
    · rw [← List.append_nil w.saved]
      exact hread hwaits
  · refine ⟨htraceable, ?_, ?_, fun rows versionIds hwaits => ?_⟩ <;> rw [hsaved]
    · intro other hother
      rcases List.mem_append.mp hother with hold | hnew
      · exact hbeyond (h.reached other hold)
      · rw [List.mem_singleton.mp hnew]
        exact hbeyond honward
    · rw [hhistory]
      intro other hother hmissing
      rw [List.mem_append, not_or] at hmissing
      have hold : other ∈ w.saved := (List.mem_append.mp hother).resolve_right hmissing.2
      exact hbeyond (h.gone other hold hmissing.1)
    · exact hread hwaits

theorem Onwards.idle (h : Onwards locale retainedVersionsPerFile w) (hidle : Idle w w') :
    Onwards locale retainedVersionsPerFile w' where
  toTraceable := h.toTraceable.idle hidle
  reached := by
    rw [hidle.saved, hidle.tables]
    exact h.reached
  gone := by
    rw [hidle.saved, hidle.tables]
    exact h.gone
  read := by
    intro rows versionIds hwaits
    rw [hidle.saved, hidle.tables]
    rcases hidle.waits _ hwaits with hold | hnew
    · exact h.read rows versionIds hold
    · cases hnew

/-- What is deleted was not current when it was read, and is behind its room since. -/
theorem Onwards.executed (h : Onwards locale retainedVersionsPerFile w)
    (hexecuted : Executed locale retainedVersionsPerFile phase w w') :
    Onwards locale retainedVersionsPerFile w' where
  toTraceable := h.toTraceable.executed hexecuted
  reached := by
    rw [hexecuted.saved, hexecuted.tables]
    exact fun version hversion => (h.reached version hversion).execute phase
  gone := by
    rw [hexecuted.saved, hexecuted.tables]
    intro version hversion hmissing
    refine GcTables.Beyond.execute ?_ phase
    by_cases hthere : version ∈ w.tables.history.rows
    · cases phase with
      | pruneSnapshotHistory rows versionIds =>
        obtain ⟨hread, rfl, hrows⟩ := h.read rows versionIds hexecuted.waiting
        have hid := GcTables.mem_versionIds_of_deleted hthere hmissing
        obtain ⟨row, hrow, rfl, hpruned⟩ := h.pruned_of_mem hread hversion hid
        refine hrows row hrow ?_
        simpa using (List.mem_filter.mp (List.mem_of_mem_drop hpruned)).2
      | _ => exact absurd hthere hmissing
    · exact h.gone version hversion hthere
  read := by
    intro rows versionIds hwaits
    rw [hexecuted.saved, hexecuted.tables]
    rcases hexecuted.waits _ hwaits with hold | hnext
    · obtain ⟨hread, hids, hrows⟩ := h.read rows versionIds hold
      exact ⟨hread, hids, fun row hrow hcurrent => (hrows row hrow hcurrent).execute phase⟩
    · cases phase with
      | listSnapshotHistoryForGc =>
        simp only [GcTables.execute, GcPhase.answered] at hnext ⊢
        split at hnext
        · cases Sum.inl.inj hnext
        · obtain ⟨rfl, rfl⟩ := GcPhase.pruneSnapshotHistory.inj (Sum.inl.inj hnext)
          have hread := h.toTraceable.readFrom
          -- the room has reached the version, which is not current when it is read
          refine ⟨hread, rfl, fun row hrow hcurrent => ?_⟩
          refine (h.reached row.toStoredVersion (hread.saved row hrow)).succ_of_not_current ?_
          rw [← isCurrent_of_mem_list hrow]
          exact hcurrent
      | compactedUpdates => cases hnext
      | _ => cases Sum.inl.inj hnext

theorem Onwards.step (h : Onwards locale retainedVersionsPerFile w) (event : GcEvent)
    (hevent : Fresh w event ∧ Onward w event) :
    Onwards locale retainedVersionsPerFile
      (gcStep locale retainedVersionsPerFile intervalMs w event) := by
  rcases gcStep_cases locale retainedVersionsPerFile intervalMs w event with
    ⟨statement, rfl⟩ | hidle | ⟨phase, hexecuted⟩
  · exact h.note hevent.1 hevent.2
  · exact h.idle hidle
  · exact h.executed hexecuted

theorem Onwards.keepsCurrent (h : Onwards locale retainedVersionsPerFile w) : KeepsCurrent w := by
  intro version hversion hcurrent
  by_contra hmissing
  rw [(h.gone version hversion hmissing).not_current] at hcurrent
  cases hcurrent

end

/-- **The versions that rooms were last saved as are in the history, whatever the servers do**, if
no room goes back. -/
theorem keepsCurrent_run (locale : Collation) (retainedVersionsPerFile : ℕ) (intervalMs : ℤ)
    (es : List GcEvent)
    (hevents : Run.EachStep (gcStep locale retainedVersionsPerFile intervalMs)
      (fun w event => Fresh w event ∧ Onward w event) {} es) :
    Run.Throughout (gcStep locale retainedVersionsPerFile intervalMs) KeepsCurrent {} es := by
  have hinitial : Onwards locale retainedVersionsPerFile {} :=
    ⟨traceable_initial, fun _ hversion => absurd hversion List.not_mem_nil,
      fun _ hversion => absurd hversion List.not_mem_nil,
      fun _ _ hwaits => (waits_initial hwaits).elim⟩
  exact (Run.throughout_of_invariant (fun _ event h hc => h.step event hc) hinitial hevents).mono
    fun _ h => h.keepsCurrent

/-- The version that the room was last saved as is current, and is there. -/
theorem keepsCurrent_run_sample :
    ((Run.final (gcStep codePoints 0 1000) {} sampleCollection).tables.history.rows.map
        StoredVersion.versionId = ["c", "d"]) ∧
      Run.Throughout (gcStep codePoints 0 1000) KeepsCurrent {} sampleCollection :=
  ⟨by decide +kernel, keepsCurrent_run codePoints 0 1000 sampleCollection (by decide +kernel)⟩

end ObsidianSync
