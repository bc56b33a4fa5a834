import ObsidianSync.Server.DataStore

/-!
# The PostgreSQL store

The same interface over SQL.  A call runs one statement; a statement that breaks
a constraint of the schema, or is given a text that its column type does not
take, throws.  Each op runs in one serializable transaction, which a throw rolls
back.

In `files` the size is a `bigint` and the epoch an `int`, and the indexes on the path have entries
of a limited size.  The other numbers count ops or are checked to be safe integers.

The tables have the keys the migrations give them: in `files` the file id alone,
though every read of `files` selects by vault and file.  A `jsonb` object is the
record it was written from, and `now()` is the time of the transaction.

## Main definitions

* `Database` — the tables of the op processor.
* `SqlTypes` — what the `uuid` and `jsonb` columns and the indexes on paths take.
* `postgres` — `PgOpDataStore`, with `Database.upsertFile` for `saveFile` and
  `Database.insertOp` for `appendOp`.
* `Database.process` — the op processor over it, in a transaction.
-/

namespace ObsidianSync

/-- What the columns of the schema take. -/
structure SqlTypes where
  /-- The id a text stands for in a `uuid` column, in its canonical form. -/
  uuid : String → Option String
  /-- Whether a `jsonb` column takes the op. -/
  jsonb : FileOp → Bool
  /-- Whether an index takes the path: an entry has a limited size. -/
  indexed : String → Bool

/-- Whether the columns of `files` and the indexes on them take a row. -/
def SqlTypes.takes (types : SqlTypes) (file : StoredFile) : Bool :=
  file.size.all (fun size => size < 2 ^ 63) && decide (file.epoch < 2 ^ 31) &&
    types.indexed file.pathNormalized

/-- The key of a row of `outbox`. -/
def OutboxRow.key (row : OutboxRow) : String × ℕ := (row.vaultId, row.vaultSeq)

/-- The tables the op processor uses; `vaults` gives each vault its `next_seq`. -/
structure Database where
  vaults : Table (Prod.fst : String × ℕ → String) := Table.empty
  devices : Table StoredDevice.deviceId := Table.empty
  roles : Table (Prod.fst : (String × String) × Role → String × String) := Table.empty
  files : Table StoredFile.fileId := Table.empty
  fileOps : Table StoredOp.opId := Table.empty
  blobs : Table BlobRecord.hash := Table.empty
  blobRefs : Table (id : BlobRef → BlobRef) := Table.empty
  conflicts : Table ConflictRecord.conflictId := Table.empty
  noteContent : Table (Prod.fst : String × Bytes → String) := Table.empty
  outbox : Table OutboxRow.key := Table.empty

/-- The statements of one transaction; `none` is an error it is rolled back for. -/
abbrev Sql := StateT Database Option

namespace Database

/-! ### Statements on `files` -/

/-- `SELECT * FROM files WHERE vault_id=$1 AND file_id=$2`. -/
def getFile (db : Database) (vaultId fileId : String) : Option StoredFile :=
  (db.files.get? fileId).filter fun file => file.vaultId = vaultId

/-- The row `saveFile` leaves: on a conflict of the key, `vault_id` and `type` are not
among the columns it sets. -/
def upserted (db : Database) (now : Time) (file : StoredFile) : StoredFile :=
  match db.files.get? file.fileId with
  | none => { file with updatedAt := now }
  | some old => { file with vaultId := old.vaultId, type := old.type, updatedAt := now }

/-- Whether the unique index `files_live_path` has another entry for the row. -/
def livePathTaken (db : Database) (file : StoredFile) : Bool :=
  !file.deleted && db.files.rows.any fun other => other.fileId ≠ file.fileId ∧
    LiveFile file.vaultId other ∧ other.pathNormalized = file.pathNormalized

/-- `INSERT INTO files … ON CONFLICT(file_id) DO UPDATE`. -/
def upsertFile (types : SqlTypes) (db : Database) (now : Time) (file : StoredFile) :
    Option Database :=
  if !types.takes file then none
  else if (db.files.get? file.fileId).isNone && (db.vaults.get? file.vaultId).isNone then none
  else if db.livePathTaken (db.upserted now file) then none
  else some { db with files := db.files.set (db.upserted now file) }

/-- `SELECT * FROM files WHERE vault_id=$1 AND path_normalized=$2 AND deleted=false`. -/
def findLiveFileByPath (db : Database) (vaultId pathNormalized : String) : Option StoredFile :=
  db.files.rows.find? fun file =>
    decide (LiveFile vaultId file ∧ file.pathNormalized = pathNormalized)

/-! ### Statements on the log -/

/-- `SELECT * FROM file_ops WHERE device_id=$1 AND device_seq=$2`. -/
def getOpByDeviceSeq (db : Database) (deviceId : String) (deviceSeq : ℕ) : Option StoredOp :=
  db.fileOps.rows.find? fun op => op.deviceId = deviceId ∧ op.deviceSeq = deviceSeq

/-- Whether a row of `file_ops` breaks the primary key or a unique index. -/
def opTaken (db : Database) (op : StoredOp) : Bool :=
  db.fileOps.rows.any fun other => (other.vaultId = op.vaultId ∧ other.seq = op.seq) ∨
    other.opId = op.opId ∨ (other.deviceId = op.deviceId ∧ other.deviceSeq = op.deviceSeq)

/-- `INSERT INTO file_ops`. -/
def insertOp (types : SqlTypes) (db : Database) (op : StoredOp) : Option Database :=
  if !types.jsonb op.payload || (db.vaults.get? op.vaultId).isNone || db.opTaken op then none
  else some { db with fileOps := db.fileOps.set op }

/-- `UPDATE vaults SET next_seq=next_seq+1 … RETURNING next_seq-1`. -/
def nextVaultSeq (db : Database) (vaultId : String) : Option (ℕ × Database) :=
  (db.vaults.get? vaultId).map fun vault =>
    (vault.2, { db with vaults := db.vaults.set (vaultId, vault.2 + 1) })

/-- `INSERT INTO outbox … ON CONFLICT DO NOTHING`. -/
def insertOutbox (types : SqlTypes) (db : Database) (row : OutboxRow) : Option Database :=
  if !types.jsonb row.payload.op then none
  else if (db.outbox.get? row.key).isSome then some db
  else some { db with outbox := db.outbox.set row }

/-! ### Statements on the other tables -/

/-- `UPDATE devices SET last_device_seq=$2,last_seq=$3,last_seen=now(),revoked=$4`. -/
def updateDevice (db : Database) (now : Time) (device : StoredDevice) : Database :=
  match db.devices.get? device.deviceId with
  | none => db
  | some row =>
    { db with devices := db.devices.set { row with
        lastDeviceSeq := device.lastDeviceSeq, lastSeq := device.lastSeq,
        lastSeen := some now, revoked := device.revoked } }

/-- `INSERT INTO blob_refs … ON CONFLICT DO NOTHING`; the hash is that of a blob. -/
def insertBlobRef (db : Database) (ref : BlobRef) : Option Database :=
  if (db.blobs.get? ref.hash).isNone then none
  else some { db with blobRefs := db.blobRefs.set ref }

/-- `DELETE FROM blob_refs`. -/
def deleteBlobRef (db : Database) (hash : String) (refType : BlobRefType) (refId : String) :
    Database :=
  { db with blobRefs := db.blobRefs.erase { hash, refType, refId } }

/-- `INSERT INTO note_content … ON CONFLICT DO NOTHING`. -/
def insertContent (db : Database) (hash : String) (bytes : Bytes) : Database :=
  if (db.noteContent.get? hash).isSome then db
  else { db with noteContent := db.noteContent.set (hash, bytes) }

/-- `INSERT INTO conflicts … ON CONFLICT … WHERE status <> 'resolved' DO UPDATE SET
status=conflicts.status RETURNING *`; a new row gets the id `uuid`. -/
def insertConflict (db : Database) (uuid : Uuid) (vaultId fileId : String) (kind : ConflictKind)
    (baseHash oursHash theirsHash : Option String) (oursVV theirsVV : Option VersionVector) :
    Option (ConflictRecord × Database) :=
  let same (existing : ConflictRecord) : Bool :=
    existing.fileId = fileId ∧ existing.kind = kind ∧
      existing.oursHash.getD "" = oursHash.getD "" ∧
      existing.theirsHash.getD "" = theirsHash.getD "" ∧ existing.status ≠ .resolved
  match db.conflicts.rows.find? same with
  | some existing => some (existing, db)
  | none =>
    if (db.vaults.get? vaultId).isNone || (db.files.get? fileId).isNone ||
        (db.conflicts.get? uuid.1).isSome then none
    else
      let conflict : ConflictRecord :=
        { conflictId := uuid.1, vaultId, fileId, kind, baseHash, oursHash, theirsHash, oursVV,
          theirsVV, status := .opened }
      some (conflict, { db with conflicts := db.conflicts.set conflict })

end Database

/-! ### The store -/

/-- A statement that reads. -/
def Sql.read {α : Type} (f : Database → α) : Sql α := fun db => some (f db, db)

/-- A statement that writes. -/
def Sql.write (f : Database → Option Database) : Sql Unit := fun db => (f db).map fun db => ((), db)

/-- `PgOpDataStore` in a transaction at `now`; `uuid` is what `gen_random_uuid()`
returns.  Ids go through the `uuid` columns, but for `file_ops.device_id`, a text. -/
def postgres (types : SqlTypes) (now : Time) (uuid : Uuid) : OpDataStore Sql where
  getDevice deviceId := do
    let id ← liftM (types.uuid deviceId)
    Sql.read fun db => db.devices.get? id
  saveDevice device := do
    let id ← liftM (types.uuid device.deviceId)
    Sql.write fun db => some (db.updateDevice now { device with deviceId := id })
  getRole vaultId userId := do
    let vault ← liftM (types.uuid vaultId)
    let user ← liftM (types.uuid userId)
    Sql.read fun db => (db.roles.get? (vault, user)).map Prod.snd
  getOpById opId := do
    let id ← liftM (types.uuid opId)
    Sql.read fun db => db.fileOps.get? id
  getOpByDeviceSeq deviceId deviceSeq := Sql.read fun db => db.getOpByDeviceSeq deviceId deviceSeq
  getFile vaultId fileId := do
    let vault ← liftM (types.uuid vaultId)
    let id ← liftM (types.uuid fileId)
    Sql.read fun db => db.getFile vault id
  saveFile file := do
    let vaultId ← liftM (types.uuid file.vaultId)
    let fileId ← liftM (types.uuid file.fileId)
    Sql.write fun db => db.upsertFile types now { file with vaultId, fileId }
  findLiveFileByPath vaultId pathNormalized := do
    let vault ← liftM (types.uuid vaultId)
    Sql.read fun db => db.findLiveFileByPath vault pathNormalized
  nextVaultSeq vaultId := do
    let vault ← liftM (types.uuid vaultId)
    fun db => db.nextVaultSeq vault
  appendOp op := do
    let vaultId ← liftM (types.uuid op.vaultId)
    let opId ← liftM (types.uuid op.opId)
    let fileId ← liftM (types.uuid op.fileId)
    Sql.write fun db => db.insertOp types { op with vaultId, opId, fileId }
  appendOutbox vaultId vaultSeq payload := do
    let vaultId ← liftM (types.uuid vaultId)
    Sql.write fun db => db.insertOutbox types { vaultId, vaultSeq, payload }
  getBlob hash := Sql.read fun db => db.blobs.get? hash
  addBlobRef ref := Sql.write fun db => db.insertBlobRef ref
  removeBlobRef hash refType refId := Sql.write fun db => some (db.deleteBlobRef hash refType refId)
  createConflict vaultId fileId kind baseHash oursHash theirsHash oursVV theirsVV := do
    let vault ← liftM (types.uuid vaultId)
    let id ← liftM (types.uuid fileId)
    fun db => db.insertConflict uuid vault id kind baseHash oursHash theirsHash oursVV theirsVV
  getContent hash := Sql.read fun db => (db.noteContent.get? hash).map Prod.snd
  putContent hash bytes := Sql.write fun db => some (db.insertContent hash bytes)

/-- `OpProcessor.process` over `PgOpDataStore`: what it throws rolls the transaction
back, whether the database or a path check throws it. -/
def Database.process (types : SqlTypes) (P : Platform) (now : Time) (uuid : Uuid) (op : FileOp)
    (userId : Option String) (db : Database) : Option OpApplyResult × Database :=
  match (postgres types now uuid).process P now op userId db with
  | some (.ok result, db') => (some result, db')
  | some (.error _, _) => (none, db)
  | none => (none, db)

end ObsidianSync
