import Mathlib.Data.List.Sort
import ObsidianSync.Lib.Table
import ObsidianSync.Shared.Path
import ObsidianSync.Shared.Protocol

/-!
# The server's store

The rows the server keeps and the calls on them, as the in-memory data store
makes them.  Ops live in one log, in the order in which they were appended; the
lookups by op id and by device sequence read the last entry that matches, as the
maps they are made from do.

## Main definitions

* `StoredFile`, `StoredDevice`, `StoredOp`, `BlobRecord`, `BlobRef` — the rows.
* `Store` — all of them.
* `Store.findLiveFileByPath`, `Store.createConflict`,
  `Store.compareAndSetConflict`, `Store.listOps` — the calls with logic in them.
* `LiveFile` — a row of a vault that is not deleted.

## Main results

* `Store.findLiveFileByPath_eq_none_iff` — no live file has the folded path.
-/

namespace ObsidianSync

/-- The role of a user in a vault. -/
inductive Role
  | owner
  | editor
  | viewer
  deriving DecidableEq, Repr

/-- Whether the role may write. -/
def Role.canWrite (role : Role) : Bool := role = .owner ∨ role = .editor

/-- How far the upload of a blob has come, and whether it is still referred to. -/
inductive BlobState
  | pending
  | uploaded
  | verified
  | unreferenced
  | deleted
  deriving DecidableEq, Repr

/-- What refers to a blob. -/
inductive BlobRefType
  | fileLive
  | fileVersion
  | conflictBase
  | conflictSide
  | yjsSnapshot
  | trash
  deriving DecidableEq, Repr

/-! ### Rows -/

/-- A row of `devices`. -/
structure StoredDevice where
  deviceId : String
  userId : String
  vaultId : String
  lastDeviceSeq : ℕ
  lastSeq : ℕ
  revoked : Bool
  lastSeen : Option Time := none
  deriving DecidableEq, Repr

/-- A row of `files`. -/
structure StoredFile where
  fileId : String
  vaultId : String
  type : FileType
  path : String
  pathNormalized : String
  pathClock : PathClock
  contentVV : VersionVector
  contentHash : Option String
  size : Option ℕ
  blobRef : Option String
  contentEncoding : Option ContentEncryptionEncoding
  deleteVV : Option VersionVector
  deleted : Bool
  deletedAt : Option Time
  epoch : ℕ
  conflictId : Option String
  activeUntil : Option Time
  updatedAt : Time
  deriving DecidableEq

/-- The key of a row of `files`. -/
def StoredFile.key (file : StoredFile) : String × String := (file.vaultId, file.fileId)

/-- The answer to an op that was applied. -/
structure OpAckResult where
  opId : String
  vaultSeq : ℕ
  resultingClocks : ResultingClocks
  conflictId : Option String := none
  deriving DecidableEq

/-- The answer to an op that was refused. -/
structure OpRejectResult where
  opId : Option String
  code : ErrorCode
  message : String
  details : Option ErrorDetails := none
  deriving DecidableEq, Repr

/-- The answer to an op. -/
inductive OpApplyResult
  | ack (result : OpAckResult)
  | reject (result : OpRejectResult)
  deriving DecidableEq

/-- A row of `file_ops`. -/
structure StoredOp where
  vaultId : String
  seq : ℕ
  opId : String
  deviceId : String
  deviceSeq : ℕ
  fileId : String
  kind : OpKind
  payload : FileOp
  result : OpApplyResult
  createdAt : Time
  deriving DecidableEq

/-- The clocks a logged op answered with. -/
def StoredOp.resultingClocks (op : StoredOp) : ResultingClocks :=
  match op.result with
  | .ack result => result.resultingClocks
  | .reject _ => { epoch := 0 }

/-- A logged op as it is sent to clients. -/
def StoredOp.toApplied (op : StoredOp) : AppliedOp :=
  { vaultSeq := op.seq, op := op.payload, resultingClocks := op.resultingClocks }

/-- A row of `blobs`. -/
structure BlobRecord where
  hash : String
  size : ℕ
  state : BlobState
  unreferencedAt : Option Time := none
  deriving DecidableEq, Repr

/-- A row of `blob_refs`. -/
structure BlobRef where
  hash : String
  refType : BlobRefType
  refId : String
  deriving DecidableEq, Repr

/-- A row of `outbox`: a committed op waiting to be published. -/
structure OutboxRow where
  vaultId : String
  vaultSeq : ℕ
  payload : AppliedOp
  published : Bool := false
  deriving DecidableEq

/-- The data store. -/
structure Store where
  devices : Table StoredDevice.deviceId := Table.empty
  roles : Table (Prod.fst : (String × String) × Role → String × String) := Table.empty
  files : Table StoredFile.key := Table.empty
  ops : List StoredOp := []
  blobs : Table BlobRecord.hash := Table.empty
  blobRefs : Table (id : BlobRef → BlobRef) := Table.empty
  conflicts : Table ConflictRecord.conflictId := Table.empty
  content : Table (Prod.fst : String × Bytes → String) := Table.empty
  outbox : List OutboxRow := []
  seqs : Table (Prod.fst : String × ℕ → String) := Table.empty
  deriving DecidableEq

/-- What `randomUUID()` gives: never the empty string. -/
abbrev Uuid := { id : String // id ≠ "" }

/-- Whether a row is a live file of the vault. -/
def LiveFile (vaultId : String) (file : StoredFile) : Prop :=
  file.vaultId = vaultId ∧ file.deleted = false

instance (vaultId : String) (file : StoredFile) : Decidable (LiveFile vaultId file) :=
  inferInstanceAs (Decidable (_ ∧ _))

namespace Store

/-! ### Devices, roles, files -/

/-- The row of a device. -/
def getDevice (s : Store) (deviceId : String) : Option StoredDevice := s.devices.get? deviceId

/-- The row of a device is written. -/
def saveDevice (s : Store) (device : StoredDevice) : Store :=
  { s with devices := s.devices.set device }

/-- The role of a user in a vault, if it is a member. -/
def getRole (s : Store) (vaultId userId : String) : Option Role :=
  (s.roles.get? (vaultId, userId)).map Prod.snd

/-- The row of a file of a vault. -/
def getFile (s : Store) (vaultId fileId : String) : Option StoredFile :=
  s.files.get? (vaultId, fileId)

/-- The row of a file is written. -/
def saveFile (s : Store) (file : StoredFile) : Store := { s with files := s.files.set file }

/-- The first live file of the vault with the folded path. -/
def findLiveFileByPath (s : Store) (vaultId pathNormalized : String) : Option StoredFile :=
  s.files.rows.find? fun file =>
    decide (LiveFile vaultId file ∧ file.pathNormalized = pathNormalized)

/-! ### Ops -/

/-- The log entry of an op. -/
def getOpById (s : Store) (opId : String) : Option StoredOp :=
  s.ops.reverse.find? fun op => op.opId = opId

/-- The log entry of a device's op. -/
def getOpByDeviceSeq (s : Store) (deviceId : String) (deviceSeq : ℕ) : Option StoredOp :=
  s.ops.reverse.find? fun op => op.deviceId = deviceId ∧ op.deviceSeq = deviceSeq

/-- The next vault sequence, without taking it. -/
def nextSeq (s : Store) (vaultId : String) : ℕ := ((s.seqs.get? vaultId).map Prod.snd).getD 1

/-- Take the next vault sequence. -/
def nextVaultSeq (s : Store) (vaultId : String) : ℕ × Store :=
  (s.nextSeq vaultId, { s with seqs := s.seqs.set (vaultId, s.nextSeq vaultId + 1) })

/-- The last vault sequence taken. -/
def currentSeq (s : Store) (vaultId : String) : ℕ := s.nextSeq vaultId - 1

/-- The log gets another entry. -/
def appendOp (s : Store) (op : StoredOp) : Store := { s with ops := s.ops ++ [op] }

/-- The outbox gets another row. -/
def appendOutbox (s : Store) (vaultId : String) (vaultSeq : ℕ) (payload : AppliedOp) : Store :=
  { s with outbox := s.outbox ++ [{ vaultId, vaultSeq, payload }] }

/-- The logged ops of a vault in `vaultSeq` order. -/
def opsByVault (s : Store) (vaultId : String) : List StoredOp :=
  (s.ops.filter fun op => op.vaultId = vaultId).insertionSort fun a b => a.seq ≤ b.seq

/-- The ops of a vault after a sequence number, as many as asked for. -/
def listOps (s : Store) (vaultId : String) (sinceSeq limit : ℕ) : List AppliedOp :=
  (((s.opsByVault vaultId).filter fun op => op.seq > sinceSeq).take limit).map
    StoredOp.toApplied

/-! ### Blobs and inline content -/

/-- The record of a blob. -/
def getBlob (s : Store) (hash : String) : Option BlobRecord := s.blobs.get? hash

/-- The record of a blob is written. -/
def saveBlob (s : Store) (blob : BlobRecord) : Store := { s with blobs := s.blobs.set blob }

/-- A reference to a blob is added. -/
def addBlobRef (s : Store) (ref : BlobRef) : Store := { s with blobRefs := s.blobRefs.set ref }

/-- A reference to a blob is removed. -/
def removeBlobRef (s : Store) (hash : String) (refType : BlobRefType) (refId : String) : Store :=
  { s with blobRefs := s.blobRefs.erase { hash, refType, refId } }

/-- The references to a blob. -/
def listBlobRefs (s : Store) (hash : String) : List BlobRef :=
  s.blobRefs.rows.filter fun ref => ref.hash = hash

/-- The stored bytes of a hash. -/
def getContent (s : Store) (hash : String) : Option Bytes := (s.content.get? hash).map Prod.snd

/-- Bytes are stored under a hash. -/
def putContent (s : Store) (hash : String) (bytes : Bytes) : Store :=
  { s with content := s.content.set (hash, bytes) }

/-! ### Conflicts -/

/-- The unresolved record with the same file, kind and sides, or a new open one.
`uuid` is what `randomUUID()` returns. -/
def createConflict (s : Store) (uuid : Uuid) (vaultId fileId : String) (kind : ConflictKind)
    (baseHash oursHash theirsHash : Option String) (oursVV theirsVV : Option VersionVector) :
    ConflictRecord × Store :=
  let same (existing : ConflictRecord) : Bool :=
    existing.fileId = fileId ∧ existing.kind = kind ∧ existing.oursHash = oursHash ∧
      existing.theirsHash = theirsHash ∧ existing.status ≠ .resolved
  match s.conflicts.rows.find? same with
  | some existing => (existing, s)
  | none =>
    let conflict : ConflictRecord :=
      { conflictId := uuid.1, vaultId, fileId, kind, baseHash, oursHash, theirsHash, oursVV,
        theirsVV, status := .opened }
    (conflict, { s with conflicts := s.conflicts.set conflict })

/-- The record of a conflict. -/
def getConflict (s : Store) (conflictId : String) : Option ConflictRecord :=
  s.conflicts.get? conflictId

/-- Write the record if the stored one has the expected status and claimant. -/
def compareAndSetConflict (s : Store) (conflict : ConflictRecord) (status : ConflictStatus)
    (claimedBy : Option String) : Bool × Store :=
  match s.getConflict conflict.conflictId with
  | none => (false, s)
  | some current =>
    if current.status ≠ status then (false, s)
    else if current.claimedBy ≠ claimedBy then (false, s)
    else (true, { s with conflicts := s.conflicts.set conflict })

/-- Whether the vault has a file, a conflict or an op with the hash. -/
def hasContentForVault (s : Store) (vaultId hash : String) : Bool :=
  (s.files.rows.any fun file => file.vaultId = vaultId ∧ file.contentHash = some hash) ||
  (s.conflicts.rows.any fun conflict => conflict.vaultId = vaultId ∧
    some hash ∈ [conflict.baseHash, conflict.oursHash, conflict.theirsHash]) ||
  ((s.opsByVault vaultId).any fun op =>
    op.payload.contentHash = some hash ∨ op.payload.blobRef = some hash)

/-! ### Lookups -/

@[simp] theorem getFile_saveFile_self (s : Store) (file : StoredFile) :
    (s.saveFile file).getFile file.vaultId file.fileId = some file :=
  Table.get?_set_self s.files file

theorem getFile_saveFile (s : Store) (file : StoredFile) (vaultId fileId : String) :
    (s.saveFile file).getFile vaultId fileId
      = if file.key = (vaultId, fileId) then some file else s.getFile vaultId fileId :=
  Table.get?_set s.files file (vaultId, fileId)

theorem key_of_getFile {s : Store} {vaultId fileId : String} {file : StoredFile}
    (h : s.getFile vaultId fileId = some file) : file.vaultId = vaultId ∧ file.fileId = fileId := by
  have hkey : file.key = (vaultId, fileId) := Table.key_of_get? h
  simpa [StoredFile.key] using hkey

/-- A lookup by path fails exactly if no live file has the folded path. -/
theorem findLiveFileByPath_eq_none_iff {s : Store} {vaultId pathNormalized : String} :
    s.findLiveFileByPath vaultId pathNormalized = none ↔
      ∀ file ∈ s.files.rows, LiveFile vaultId file → file.pathNormalized ≠ pathNormalized := by
  simp only [findLiveFileByPath, List.find?_eq_none, decide_eq_true_eq, not_and, ne_eq]

theorem of_findLiveFileByPath {s : Store} {vaultId pathNormalized : String} {file : StoredFile}
    (h : s.findLiveFileByPath vaultId pathNormalized = some file) :
    file ∈ s.files.rows ∧ LiveFile vaultId file ∧ file.pathNormalized = pathNormalized :=
  ⟨List.mem_of_find?_eq_some h, by simpa using List.find?_some h⟩

theorem mem_of_getOpById {s : Store} {opId : String} {op : StoredOp}
    (h : s.getOpById opId = some op) : op ∈ s.ops ∧ op.opId = opId :=
  ⟨List.mem_reverse.mp (List.mem_of_find?_eq_some h), by simpa using List.find?_some h⟩

theorem getOpById_eq_none_iff {s : Store} {opId : String} :
    s.getOpById opId = none ↔ ∀ op ∈ s.ops, op.opId ≠ opId := by
  simp [getOpById, List.find?_eq_none]

/-- The last op appended is the one its id finds. -/
theorem getOpById_append (s : Store) (op : StoredOp) (opId : String) :
    ({ s with ops := s.ops ++ [op] } : Store).getOpById opId
      = if op.opId = opId then some op else s.getOpById opId := by
  by_cases h : op.opId = opId <;> simp [getOpById, h]

/-- The next sequence depends on the sequences only. -/
theorem nextSeq_congr {s t : Store} (h : t.seqs = s.seqs) (vaultId : String) :
    t.nextSeq vaultId = s.nextSeq vaultId := by
  rw [nextSeq, nextSeq, h]

end Store

end ObsidianSync
