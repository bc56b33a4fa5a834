import ObsidianSync.Lib.SnapshotLog
import ObsidianSync.Room.Durable

/-!
# The tables of a room

`PgYjsRoomStore` keeps a room in four tables.  The row of the room has no snapshot: that is a row
of its own, one for each incarnation, and a room is read with two statements.  An update whose
number is taken is not inserted.  The collector deletes from the same tables, one statement at a
time, between those of the calls.

Only the rows of one note are modelled.  Versions of the history are named by their position among
those that were inserted.  Nobody reads the time of a snapshot row.

## Main definitions

* `YjsRoomRow`, `YjsSnapshotRow`, `PgYjsTables` — the rows.
* `PgStatement`, `CollectorStatement` — the statements that write, and those of the collector.
* `PgYjsTables.loadRuntime` — the room that is loaded, with statements of the collector between
  those that read.
* `PgYjsTables.log` — the snapshots and updates, as a log of the document.
* `StoredAs` — the tables are those of a room.

## Main results

* `StoredAs.collected` — so they are after the collector.
* `StoredAs.loadRuntime` — and loading them gives the room.
-/

namespace ObsidianSync

/-! ### Rows -/

/-- A row of `yjs_rooms`. -/
structure YjsRoomRow where
  roomEpoch : ℕ := 0
  active : Bool := false
  seeded : Bool := false
  leaseOwner : Option String := none
  leaseUntil : Option ℕ := none
  activationBaseVV : VersionVector := VersionVector.emptyVV
  activationBaseHash : Option String := none
  nextSeq : ℕ := 1

/-- A row of `yjs_snapshots`. -/
structure YjsSnapshotRow (D : Type) where
  roomEpoch : ℕ
  snapshot : D
  compactedThroughSeq : ℕ

/-- The rows of one note: of the history the versions that were inserted, and which of them were
deleted. -/
structure PgYjsTables (D : Type) where
  room : Option YjsRoomRow := none
  snapshots : Table (fun row : YjsSnapshotRow D => row.roomEpoch) := Table.empty
  updates : Table (fun update : StoredYjsUpdate D => (update.roomEpoch, update.seq)) := Table.empty
  history : List (YjsSnapshotVersion D) := []
  pruned : List ℕ := []

section

variable {D : Type}

/-- What of a room is in its row. -/
def PersistedYjsRoom.row (persisted : PersistedYjsRoom D) : YjsRoomRow where
  roomEpoch := persisted.epoch
  active := persisted.active
  seeded := persisted.seeded
  leaseOwner := persisted.leaseOwner
  leaseUntil := persisted.leaseUntil
  activationBaseVV := persisted.activationBaseVV
  activationBaseHash := persisted.activationBaseHash
  nextSeq := persisted.nextSeq

/-- A room from its row, and that of its snapshot. -/
def YjsRoomRow.persisted (row : YjsRoomRow) (snapshot : Option (YjsSnapshotRow D)) :
    PersistedYjsRoom D where
  epoch := row.roomEpoch
  active := row.active
  seeded := row.seeded
  leaseOwner := row.leaseOwner
  leaseUntil := row.leaseUntil
  activationBaseVV := row.activationBaseVV
  activationBaseHash := row.activationBaseHash
  nextSeq := row.nextSeq
  snapshot := snapshot.map YjsSnapshotRow.snapshot
  compactedThroughSeq := (snapshot.map YjsSnapshotRow.compactedThroughSeq).getD 0

/-! ### Statements -/

/-- The statements by which `PgYjsRoomStore` writes. -/
inductive PgStatement (D : Type)
  | saveRoom (row : YjsRoomRow)
  | appendUpdate (update : StoredYjsUpdate D)
  /-- The two statements of `saveSnapshot`. -/
  | upsertSnapshot (row : YjsSnapshotRow D)
  | insertVersion (version : YjsSnapshotVersion D)
  | deleteUpdatesThrough (roomEpoch seq : ℕ)

/-- The statements of the collector. -/
inductive CollectorStatement
  | pruneSnapshotHistory (versionIds : List ℕ)
  /-- The two statements of `pruneSupersededYjsData`. -/
  | supersededSnapshots
  | compactedUpdates
  deriving DecidableEq, Repr

namespace PgYjsTables

variable (tables : PgYjsTables D)

/-- The tables after a statement. -/
def run : PgStatement D → PgYjsTables D
  | .saveRoom row => { tables with room := some row }
  | .appendUpdate update =>
    -- `ON CONFLICT DO NOTHING`
    if (tables.updates.get? (update.roomEpoch, update.seq)).isSome then tables
    else { tables with updates := tables.updates.set update }
  | .upsertSnapshot row => { tables with snapshots := tables.snapshots.set row }
  | .insertVersion version => { tables with history := tables.history ++ [version] }
  | .deleteUpdatesThrough roomEpoch seq =>
    { tables with
      updates := tables.updates.deleteWhere fun update =>
        update.roomEpoch = roomEpoch ∧ update.seq ≤ seq }

/-- The tables after a statement of the collector. -/
def collect : CollectorStatement → PgYjsTables D
  | .pruneSnapshotHistory versionIds =>
    { tables with
      pruned := tables.pruned ++ versionIds.filter fun id => id < tables.history.length }
  | .supersededSnapshots =>
    match tables.room with
    | none => tables
    | some room =>
      { tables with
        snapshots := tables.snapshots.deleteWhere fun row => row.roomEpoch < room.roomEpoch }
  | .compactedUpdates =>
    { tables with
      updates := tables.updates.deleteWhere fun update =>
        tables.snapshots.rows.any fun row =>
          update.roomEpoch = row.roomEpoch ∧ update.seq ≤ row.compactedThroughSeq }

/-- Statements of the collector, one after the other. -/
def collected (statements : List CollectorStatement) : PgYjsTables D :=
  statements.foldl collect tables

/-! ### Reading -/

/-- `ORDER BY seq ASC`. -/
def listUpdates (roomEpoch afterSeq : ℕ) : List (StoredYjsUpdate D) :=
  (tables.updates.rows.filter fun update =>
    update.roomEpoch = roomEpoch ∧ update.seq > afterSeq).insertionSort fun a b => a.seq ≤ b.seq

/-- A version of the history that was not pruned. -/
def getSnapshotVersion (versionId : ℕ) : Option (YjsSnapshotVersion D) :=
  if versionId ∈ tables.pruned then none else tables.history[versionId]?

/-- `getRoom`; between its statements the collector may come. -/
def getRoom (between : List CollectorStatement) : Option (PersistedYjsRoom D) :=
  tables.room.map fun row => row.persisted ((tables.collected between).snapshots.get? row.roomEpoch)

variable [SemilatticeSup D] [OrderBot D]

/-- `loadRuntime`, with what the collector does between the three statements that read. -/
def loadRuntime (between later : List CollectorStatement) : RuntimeRoom D :=
  let persisted := (tables.getRoom between).getD emptyRoom
  let updates :=
    if persisted.seeded then
      ((tables.collected between).collected later).listUpdates persisted.epoch
        persisted.compactedThroughSeq
    else []
  { persisted
    doc := updates.foldl (fun doc update => doc ⊔ update.update) (⊥ ⊔ persisted.snapshot.getD ⊥)
    state := if persisted.active then .active else .closed }

end PgYjsTables

/-! ### The log of the document -/

namespace PgYjsTables

/-- The snapshots and the updates. -/
def log (tables : PgYjsTables D) : SnapshotLog D where
  snapshot roomEpoch :=
    (tables.snapshots.get? roomEpoch).map fun row => (row.snapshot, row.compactedThroughSeq)
  update roomEpoch seq := (tables.updates.get? (roomEpoch, seq)).map StoredYjsUpdate.update

variable {tables : PgYjsTables D}

theorem log_appendUpdate (tables : PgYjsTables D) (update : StoredYjsUpdate D) :
    (tables.run (.appendUpdate update)).log
      = tables.log.append update.roomEpoch update.seq update.update := by
  cases hget : tables.updates.get? (update.roomEpoch, update.seq) with
  | none =>
    simp only [run, hget, Option.isSome_none, Bool.false_eq_true, if_false, log,
      SnapshotLog.append, Table.get?_set, Prod.mk.injEq, SnapshotLog.mk.injEq, true_and]
    funext g n
    by_cases hkey : g = update.roomEpoch ∧ n = update.seq
    · obtain ⟨rfl, rfl⟩ := hkey
      simp
    · have hne : ¬(update.roomEpoch = g ∧ update.seq = n) := fun h => hkey ⟨h.1.symm, h.2.symm⟩
      rw [if_neg hkey, if_neg hne]
  | some row =>
    simp only [run, hget, Option.isSome_some, if_true, log, SnapshotLog.append,
      SnapshotLog.mk.injEq, true_and]
    funext g n
    by_cases hkey : g = update.roomEpoch ∧ n = update.seq
    · obtain ⟨rfl, rfl⟩ := hkey
      simp [hget]
    · simp [hkey]

theorem log_upsertSnapshot (tables : PgYjsTables D) (row : YjsSnapshotRow D) :
    (tables.run (.upsertSnapshot row)).log
      = tables.log.put row.roomEpoch row.snapshot row.compactedThroughSeq := by
  simp only [run, log, SnapshotLog.put, Table.get?_set, SnapshotLog.mk.injEq, and_true]
  funext g
  by_cases hkey : g = row.roomEpoch
  · subst hkey
    simp
  · rw [if_neg hkey, if_neg (Ne.symm hkey)]

/-- What a deletion of updates leaves. -/
theorem log_update_deleteWhere (p : StoredYjsUpdate D → Bool) (g n : ℕ) :
    ({ tables with updates := tables.updates.deleteWhere p } : PgYjsTables D).log.update g n
      = ((tables.updates.get? (g, n)).filter fun update => !p update).map
          StoredYjsUpdate.update := by
  simp only [log, Table.get?_deleteWhere]

/-- A deletion of updates that the snapshot of their incarnation holds. -/
theorem collected_deleteWhere {generation : ℕ} {p : StoredYjsUpdate D → Bool}
    (h : ∀ update, p update = true → update.roomEpoch = generation →
      ∃ s, tables.log.snapshot generation = some s ∧ update.seq ≤ s.2) :
    SnapshotLog.Collected generation tables.log
      ({ tables with updates := tables.updates.deleteWhere p } : PgYjsTables D).log where
  snapshot := rfl
  snapshots := id
  updates := by
    intro g n u hleft
    rw [log_update_deleteWhere] at hleft
    obtain ⟨update, hget, rfl⟩ := Option.map_eq_some_iff.mp hleft
    exact Option.map_eq_some_iff.mpr ⟨update, (Option.filter_eq_some_iff.mp hget).1, rfl⟩
  covered := by
    intro n u hupdate
    obtain ⟨update, hget, rfl⟩ := Option.map_eq_some_iff.mp hupdate
    have hkey := Table.key_of_get? hget
    cases hp : p update with
    | false =>
      left
      rw [log_update_deleteWhere, hget, Option.filter_some_pos (by rw [hp, Bool.not_false])]
      rfl
    | true =>
      right
      obtain ⟨s, hsnapshot, hle⟩ := h update hp (congrArg Prod.fst hkey)
      have hseq : update.seq = n := congrArg Prod.snd hkey
      exact ⟨s, hsnapshot, hseq ▸ hle⟩

/-- A deletion of snapshots of other incarnations. -/
theorem collected_deleteSnapshots {generation : ℕ} {p : YjsSnapshotRow D → Bool}
    (h : ∀ row, p row = true → row.roomEpoch ≠ generation) :
    SnapshotLog.Collected generation tables.log
      ({ tables with snapshots := tables.snapshots.deleteWhere p } : PgYjsTables D).log where
  snapshot := by
    simp only [log, Table.get?_deleteWhere]
    cases hget : tables.snapshots.get? generation with
    | none => rfl
    | some row =>
      cases hp : p row with
      | false => rw [Option.filter_some_pos (by rw [hp, Bool.not_false])]
      | true => exact absurd (Table.key_of_get? hget) (h row hp)
  snapshots := by
    intro g s hleft
    simp only [log, Table.get?_deleteWhere] at hleft
    obtain ⟨row, hget, rfl⟩ := Option.map_eq_some_iff.mp hleft
    exact Option.map_eq_some_iff.mpr ⟨row, (Option.filter_eq_some_iff.mp hget).1, rfl⟩
  updates := id
  covered := Or.inl

/-- A statement of the collector leaves the newest incarnation what it needs. -/
theorem collected_collect {generation : ℕ}
    (hrow : (tables.room.getD {}).roomEpoch ≤ generation) (statement : CollectorStatement) :
    SnapshotLog.Collected generation tables.log (tables.collect statement).log := by
  cases statement with
  | pruneSnapshotHistory versionIds => exact ⟨rfl, id, id, Or.inl⟩
  | supersededSnapshots =>
    unfold collect
    dsimp only
    split
    · exact ⟨rfl, id, id, Or.inl⟩
    · next room hroom =>
      rw [hroom] at hrow
      refine collected_deleteSnapshots fun row hdeleted => ?_
      exact ((of_decide_eq_true hdeleted).trans_le hrow).ne
  | compactedUpdates =>
    refine collected_deleteWhere fun update hdeleted hgeneration => ?_
    obtain ⟨row, hrow, hcovers⟩ := List.any_eq_true.mp hdeleted
    obtain ⟨hsame, hle⟩ := of_decide_eq_true hcovers
    refine ⟨(row.snapshot, row.compactedThroughSeq), ?_, hle⟩
    have hget : tables.snapshots.get? generation = some row :=
      (hgeneration.symm.trans hsame) ▸ Table.get?_key hrow
    simp only [log, hget, Option.map_some]

theorem room_collect (tables : PgYjsTables D) (statement : CollectorStatement) :
    (tables.collect statement).room = tables.room := by
  cases statement with
  | supersededSnapshots =>
    unfold collect
    dsimp only
    split <;> rfl
  | _ => rfl

end PgYjsTables

/-! ### What the tables show -/

variable [SemilatticeSup D] [OrderBot D]

/-- The row of the room, and the image of the log. -/
structure ShowsRoom (row : YjsRoomRow) (image : SnapshotLog.Image D) (tables : PgYjsTables D) :
    Prop where
  stored : tables.room.getD {} = row
  next_pos : 0 < row.nextSeq
  le : row.roomEpoch ≤ image.generation
  holds : tables.log.Holds image

/-- What the log of a room shows. -/
def PersistedYjsRoom.image (persisted : PersistedYjsRoom D) (doc : D) : SnapshotLog.Image D where
  generation := persisted.epoch
  shown := persisted.snapshot.map fun snapshot => (snapshot, persisted.compactedThroughSeq)
  next := persisted.nextSeq
  doc

/-- What is in memory of a stored room makes sense. -/
structure RoomSound (persisted : PersistedYjsRoom D) (doc : D) : Prop where
  fresh : persisted.snapshot = none → persisted.compactedThroughSeq = 0
  seeded : persisted.active = true → persisted.seeded = true
  /-- The updates of a room that was never activated are not loaded. -/
  unseeded : persisted.seeded = false → doc ≤ persisted.snapshot.getD ⊥

/-- The tables are those of the room with this document. -/
structure StoredAs (persisted : PersistedYjsRoom D) (doc : D) (tables : PgYjsTables D) : Prop
    extends RoomSound persisted doc where
  shows : ShowsRoom persisted.row (persisted.image doc) tables
  absent : tables.room = none → persisted = emptyRoom

section

variable {row : YjsRoomRow} {image : SnapshotLog.Image D} {tables : PgYjsTables D}
  {persisted : PersistedYjsRoom D} {doc : D}

theorem ShowsRoom.collect (h : ShowsRoom row image tables) (statement : CollectorStatement) :
    ShowsRoom row image (tables.collect statement) where
  stored := (congrArg (·.getD {}) (tables.room_collect statement)).trans h.stored
  next_pos := h.next_pos
  le := h.le
  holds := h.holds.collected (tables.collected_collect (h.stored.symm ▸ h.le) statement)

theorem StoredAs.collect (h : StoredAs persisted doc tables) (statement : CollectorStatement) :
    StoredAs persisted doc (tables.collect statement) :=
  ⟨h.toRoomSound, h.shows.collect statement,
    fun hroom => h.absent ((tables.room_collect statement).symm.trans hroom)⟩

/-- **The collector does nothing to the room**, whichever statements it makes. -/
theorem StoredAs.collected (h : StoredAs persisted doc tables)
    (statements : List CollectorStatement) :
    StoredAs persisted doc (tables.collected statements) := by
  induction statements generalizing tables with
  | nil => exact h
  | cons statement statements ih => exact ih (h.collect statement)

theorem PersistedYjsRoom.base_image (persisted : PersistedYjsRoom D) (doc : D) :
    (persisted.image doc).base = persisted.snapshot.getD ⊥ := by
  unfold SnapshotLog.Image.base PersistedYjsRoom.image
  cases persisted.snapshot <;> rfl

/-! ### Loading -/

/-- The room is read from its row and that of its snapshot. -/
theorem StoredAs.getRoom (h : StoredAs persisted doc tables) (between : List CollectorStatement) :
    (tables.getRoom between).getD emptyRoom = persisted := by
  have hsnapshot := (h.collected between).shows.holds.shown
  have hrow := h.shows.stored
  have hread : persisted.row.persisted ((tables.collected between).snapshots.get? persisted.epoch)
      = persisted := by
    obtain ⟨epoch, active, seeded, leaseOwner, leaseUntil, vv, hash, nextSeq, snapshot, through⟩ :=
      persisted
    simp only [PgYjsTables.log, PersistedYjsRoom.image] at hsnapshot
    cases hget : (tables.collected between).snapshots.get? epoch with
    | none =>
      rw [hget] at hsnapshot
      obtain rfl : snapshot = none := Option.map_eq_none_iff.mp hsnapshot.symm
      obtain rfl : through = 0 := h.fresh rfl
      rfl
    | some stored =>
      rw [hget] at hsnapshot
      obtain ⟨d, rfl, hsame⟩ := Option.map_eq_some_iff.mp hsnapshot.symm
      obtain ⟨rfl, rfl⟩ := Prod.mk.inj hsame
      rfl
  unfold PgYjsTables.getRoom
  cases hroom : tables.room with
  | none => exact (h.absent hroom).symm
  | some stored =>
    rw [hroom] at hrow
    obtain rfl : stored = persisted.row := hrow
    exact hread

/-- **Loading the tables gives the room**, whatever the collector does between the statements. -/
theorem StoredAs.loadRuntime (h : StoredAs persisted doc tables)
    (between later : List CollectorStatement) :
    tables.loadRuntime between later
      = { persisted, doc, state := if persisted.active then .active else .closed } := by
  have hshows := ((h.collected between).collected later).shows
  unfold PgYjsTables.loadRuntime
  rw [h.getRoom]
  generalize (tables.collected between).collected later = read at hshows
  -- the document is what is in question: the snapshot and the updates after it
  suffices hdoc : (if persisted.seeded then
      read.listUpdates persisted.epoch persisted.compactedThroughSeq else []).foldl
        (fun doc update => doc ⊔ update.update) (⊥ ⊔ persisted.snapshot.getD ⊥) = doc by
    simp only [hdoc]
  rw [bot_sup_eq, ← persisted.base_image doc]
  cases hseeded : persisted.seeded with
  | false =>
    rw [if_neg Bool.false_ne_true, List.foldl_nil]
    refine le_antisymm hshows.holds.base_le ?_
    rw [PersistedYjsRoom.base_image]
    exact h.unseeded hseeded
  | true =>
    have hmem : ∀ {update}, update ∈ read.listUpdates persisted.epoch
        persisted.compactedThroughSeq ↔ update ∈ read.updates.rows ∧
          update.roomEpoch = persisted.epoch ∧ persisted.compactedThroughSeq < update.seq := by
      intro update
      simp [PgYjsTables.listUpdates, List.mem_insertionSort]
    -- each update that is missing is in the snapshot
    have hload : ((read.listUpdates persisted.epoch persisted.compactedThroughSeq).map
        StoredYjsUpdate.update).foldl (· ⊔ ·) (persisted.image doc).base = doc := by
      refine hshows.holds.load (fun u hu => ?_) fun {n u} hupdate hlater => ?_
      · obtain ⟨update, hlisted, rfl⟩ := List.mem_map.mp hu
        obtain ⟨hrow, hepoch, -⟩ := hmem.mp hlisted
        refine ⟨update.seq, ?_⟩
        have hget := Table.get?_key hrow
        simp only [hepoch] at hget
        simp only [PgYjsTables.log, PersistedYjsRoom.image, hget, Option.map_some]
      · obtain ⟨update, hget, rfl⟩ := Option.map_eq_some_iff.mp hupdate
        have hkey := Table.key_of_get? hget
        obtain ⟨hepoch, hseq⟩ := Prod.mk.inj hkey
        refine List.mem_map_of_mem (hmem.mpr ⟨Table.mem_of_get? hget, hepoch, ?_⟩)
        rw [hseq]
        unfold PersistedYjsRoom.image at hlater
        cases hsnapshot : persisted.snapshot with
        | none =>
          rw [hsnapshot] at hlater
          rw [h.fresh hsnapshot]
          exact hlater
        | some snapshot =>
          rw [hsnapshot] at hlater
          exact hlater
    rw [List.foldl_map] at hload
    rw [if_pos rfl]
    exact hload

/-! ### What the statements write -/

theorem ShowsRoom.saveRoom (h : ShowsRoom row image tables) {next : YjsRoomRow}
    (hnext : 0 < next.nextSeq) (hle : next.roomEpoch ≤ image.generation) :
    ShowsRoom next image (tables.run (.saveRoom next)) :=
  ⟨rfl, hnext, hle, h.holds⟩

/-- A later incarnation of which nothing is stored. -/
theorem ShowsRoom.begin (h : ShowsRoom row image tables) {generation : ℕ}
    (hlater : image.generation < generation) :
    ShowsRoom row ⟨generation, none, 1, ⊥⟩ tables :=
  ⟨h.stored, h.next_pos, h.le.trans hlater.le, h.holds.begin hlater Nat.one_pos⟩

theorem ShowsRoom.appendUpdate (h : ShowsRoom row image tables) (update : StoredYjsUpdate D)
    (hepoch : update.roomEpoch = image.generation) (hseq : update.seq = image.next) :
    ShowsRoom row { image with next := image.next + 1, doc := image.doc ⊔ update.update }
      (tables.run (.appendUpdate update)) where
  stored := by
    rw [← h.stored]
    unfold PgYjsTables.run
    dsimp only
    split <;> rfl
  next_pos := h.next_pos
  le := h.le
  holds := by
    rw [PgYjsTables.log_appendUpdate, hepoch, hseq]
    exact h.holds.append update.update

theorem ShowsRoom.upsertSnapshot (h : ShowsRoom row image tables) (snapshot : YjsSnapshotRow D)
    (hepoch : snapshot.roomEpoch = image.generation) (hdoc : image.doc ≤ snapshot.snapshot)
    (hthrough : snapshot.compactedThroughSeq < image.next) :
    ShowsRoom row
      { image with
        shown := some (snapshot.snapshot, snapshot.compactedThroughSeq)
        doc := snapshot.snapshot }
      (tables.run (.upsertSnapshot snapshot)) where
  stored := h.stored
  next_pos := h.next_pos
  le := h.le
  holds := by
    rw [PgYjsTables.log_upsertSnapshot, hepoch]
    exact h.holds.put hdoc hthrough

theorem ShowsRoom.insertVersion (h : ShowsRoom row image tables)
    (version : YjsSnapshotVersion D) :
    ShowsRoom row image (tables.run (.insertVersion version)) :=
  ⟨h.stored, h.next_pos, h.le, h.holds⟩

/-- Updates are deleted that the snapshot holds. -/
theorem ShowsRoom.deleteUpdatesThrough (h : ShowsRoom row image tables) {roomEpoch seq : ℕ}
    {s : D × ℕ} (hshown : image.shown = some s) (hle : seq ≤ s.2) :
    ShowsRoom row image (tables.run (.deleteUpdatesThrough roomEpoch seq)) where
  stored := h.stored
  next_pos := h.next_pos
  le := h.le
  holds := by
    refine h.holds.collected (PgYjsTables.collected_deleteWhere fun update hdeleted _ => ?_)
    exact ⟨s, h.holds.shown.trans hshown, (of_decide_eq_true hdeleted).2.trans hle⟩

/-! ### After a crash -/

/-- Nothing is half written: the row numbers the updates and the snapshot of its incarnation, and
a room that was activated has a snapshot. -/
structure Whole (tables : PgYjsTables D) : Prop where
  updates : ∀ update ∈ tables.updates.rows,
    update.roomEpoch = (tables.room.getD {}).roomEpoch → update.seq < (tables.room.getD {}).nextSeq
  snapshots : ∀ snapshot ∈ tables.snapshots.rows,
    snapshot.roomEpoch = (tables.room.getD {}).roomEpoch →
      snapshot.compactedThroughSeq < (tables.room.getD {}).nextSeq
  seeded : (tables.room.getD {}).seeded = true → ∃ snapshot ∈ tables.snapshots.rows,
    snapshot.roomEpoch = (tables.room.getD {}).roomEpoch
  absent : tables.room = none → tables.snapshots.rows = []

omit [SemilatticeSup D] [OrderBot D] in
theorem image_persisted (row : YjsRoomRow) (snapshot : Option (YjsSnapshotRow D)) (doc : D) :
    (row.persisted snapshot).image doc
      = ⟨row.roomEpoch, snapshot.map fun s => (s.snapshot, s.compactedThroughSeq), row.nextSeq,
          doc⟩ := by
  cases snapshot <;> rfl

/-- Whole tables are those of a room, of which they show the document. -/
theorem ShowsRoom.storedAs_of_whole (h : ShowsRoom row image tables)
    (hepoch : row.roomEpoch = image.generation) (hseeded : row.active = true → row.seeded = true)
    (hunseeded : row.seeded = false → image.doc ≤ image.base) (hwhole : Whole tables) :
    StoredAs (row.persisted (tables.snapshots.get? row.roomEpoch)) image.doc tables := by
  have hrow := h.stored
  have hshown : (tables.snapshots.get? row.roomEpoch).map
      (fun s => (s.snapshot, s.compactedThroughSeq)) = image.shown := by
    rw [hepoch]
    exact h.holds.shown
  have himage : (row.persisted (tables.snapshots.get? row.roomEpoch)).image image.doc
      = { image with next := row.nextSeq } := by
    rw [image_persisted, hshown, hepoch]
  have hholds : tables.log.Holds { image with next := row.nextSeq } := by
    refine ⟨h.holds.snapshots, h.holds.updates, h.holds.shown, h.next_pos, fun {s} hsome => ?_,
      fun {n u} hupdate => ?_, h.holds.covered, h.holds.complete⟩
    · refine ⟨(h.holds.part hsome).1, ?_⟩
      obtain ⟨snapshot, hget, rfl⟩ := Option.map_eq_some_iff.mp (hshown.trans hsome)
      have hlt := hwhole.snapshots snapshot (Table.mem_of_get? hget)
      rw [hrow] at hlt
      exact hlt (Table.key_of_get? hget)
    · obtain ⟨hle, hpos, -⟩ := h.holds.merged hupdate
      refine ⟨hle, hpos, ?_⟩
      obtain ⟨update, hget, rfl⟩ := Option.map_eq_some_iff.mp hupdate
      have hkey := Table.key_of_get? hget
      obtain ⟨hsame, hseq⟩ := Prod.mk.inj hkey
      have hlt := hwhole.updates update (Table.mem_of_get? hget)
      rw [hrow, hseq] at hlt
      exact hlt (hsame.trans hepoch.symm)
  refine ⟨⟨fun hnone => ?_, hseeded, fun hfalse => ?_⟩, ⟨hrow, h.next_pos, Nat.le_refl _, ?_⟩,
    fun hroom => ?_⟩
  · obtain hnone : tables.snapshots.get? row.roomEpoch = none := Option.map_eq_none_iff.mp hnone
    rw [hnone]
    rfl
  · rw [← PersistedYjsRoom.base_image _ image.doc, himage]
    exact hunseeded hfalse
  · rw [himage]
    exact hholds
  · have hempty : tables.snapshots.get? row.roomEpoch = none :=
      Table.get?_eq_none_iff.mpr fun snapshot hmem => by
        rw [hwhole.absent hroom] at hmem
        exact absurd hmem List.not_mem_nil
    rw [hempty]
    rw [hroom] at hrow
    rw [← hrow]
    rfl

end

end

end ObsidianSync
