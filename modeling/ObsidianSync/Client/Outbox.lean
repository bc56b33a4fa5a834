import Mathlib.Data.List.Sort
import ObsidianSync.Lib.Table
import ObsidianSync.Server.Store

/-!
# The outbox

A client numbers its ops with a device sequence and keeps each until the server
has answered it.

## Main definitions

* `OutboxEntry`, `OutboxManager` — the ops and their states.
* `enqueue`, `markInflight`, `ack`, `conflict`, `reject`, `removeAndReindex` — as
  the source has them.
* `retryable` — what is still to be sent or answered, by device sequence.
-/

namespace ObsidianSync

/-- The status of an entry of the outbox. -/
inductive OutboxStatus
  | queued
  | inflight
  | conflicted
  | rejected
  deriving DecidableEq, Repr

/-- An op in the outbox. -/
structure OutboxEntry where
  op : FileOp
  status : OutboxStatus
  attempts : ℕ
  lastError : Option String := none
  queuedAt : Time
  updatedAt : Time
  deriving DecidableEq

/-- The key of an outbox entry. -/
def OutboxEntry.opId (entry : OutboxEntry) : String := entry.op.opId

/-- An op before the outbox has numbered it. -/
structure FileOpDraft where
  opId : Option String := none
  fileId : String
  vaultId : String
  kind : OpKind
  type : FileType
  baseContentVV : Option VersionVector := none
  newContentVV : Option VersionVector := none
  contentHash : Option String := none
  size : Option ℕ := none
  contentEncoding : Option ContentEncryptionEncoding := none
  inlineText : Option String := none
  blobRef : Option String := none
  newPath : Option String := none
  pathClock : Option PathClock := none
  deleteClock : Option PathClock := none
  deriving DecidableEq

/-- The ops of a device that the server has not answered for good. -/
structure OutboxManager where
  deviceId : String
  nextDeviceSeq : ℕ
  map : Table OutboxEntry.opId
  deriving DecidableEq

namespace OutboxManager

/-- The constructor: entries as they were persisted, the sequence past them. -/
def create (deviceId : String) (nextDeviceSeq : ℕ) (entries : List OutboxEntry) : OutboxManager :=
  let maxExisting := (entries.map fun entry => entry.op.deviceSeq).foldl max 0
  { deviceId
    nextDeviceSeq := if nextDeviceSeq ≤ maxExisting then maxExisting + 1 else nextDeviceSeq
    map := entries.foldl Table.set Table.empty }

/-- The entries by device sequence. -/
def entries (m : OutboxManager) : List OutboxEntry :=
  m.map.rows.insertionSort fun a b => a.op.deviceSeq ≤ b.op.deviceSeq

/-- The op a draft becomes; `uuid` is what `uuid()` returns. -/
def opOfDraft (m : OutboxManager) (uuid : Uuid) (draft : FileOpDraft) : FileOp :=
  { opId := draft.opId.getD uuid.1
    deviceId := m.deviceId
    deviceSeq := m.nextDeviceSeq
    fileId := draft.fileId
    vaultId := draft.vaultId
    kind := draft.kind
    type := draft.type
    baseContentVV := draft.baseContentVV
    newContentVV := draft.newContentVV
    contentHash := draft.contentHash
    size := draft.size
    contentEncoding := draft.contentEncoding
    inlineText := draft.inlineText
    blobRef := draft.blobRef
    newPath := draft.newPath
    pathClock := draft.pathClock
    deleteClock := draft.deleteClock
    schemaVersion := some protocolVersion }

/-- Number the draft and keep it as queued. -/
def enqueue (m : OutboxManager) (now : Time) (uuid : Uuid) (draft : FileOpDraft) :
    FileOp × OutboxManager :=
  let op := m.opOfDraft uuid draft
  (op, { m with
    nextDeviceSeq := m.nextDeviceSeq + 1
    map := m.map.set { op, status := .queued, attempts := 0, queuedAt := now, updatedAt := now } })

/-- Change the entry of an op, if there is one. -/
def modify (m : OutboxManager) (opId : String) (f : OutboxEntry → OutboxEntry) : OutboxManager :=
  match m.map.get? opId with
  | none => m
  | some entry => { m with map := m.map.set (f entry) }

/-- An op is on its way. -/
def markInflight (m : OutboxManager) (now : Time) (opId : String) : OutboxManager :=
  m.modify opId fun entry =>
    { entry with status := .inflight, attempts := entry.attempts + 1, updatedAt := now }

/-- An op was refused, for good or to be sent again. -/
def reject (m : OutboxManager) (now : Time) (opId message : String) (terminal : Bool) :
    OutboxManager :=
  m.modify opId fun entry =>
    { entry with
      status := if terminal then .rejected else .queued, lastError := some message,
      updatedAt := now }

/-- An op has opened a conflict. -/
def conflict (m : OutboxManager) (now : Time) (opId conflictId : String) : OutboxManager :=
  m.modify opId fun entry =>
    { entry with status := .conflicted, lastError := some conflictId, updatedAt := now }

/-- An op was applied and leaves the outbox. -/
def ack (m : OutboxManager) (opId : String) : OutboxManager := { m with map := m.map.erase opId }

/-- The entry with its sequence lowered by one if it is past `seq`. -/
def reindexed (seq : ℕ) (entry : OutboxEntry) : OutboxEntry :=
  if entry.op.deviceSeq > seq then
    { entry with op := { entry.op with deviceSeq := entry.op.deviceSeq - 1 } }
  else entry

theorem opId_reindexed (seq : ℕ) (entry : OutboxEntry) :
    (reindexed seq entry).opId = entry.opId := by
  unfold reindexed
  split <;> rfl

/-- Drop an op and close the gap it leaves in the sequence. -/
def removeAndReindex (m : OutboxManager) (opId : String) : OutboxManager :=
  match m.map.get? opId with
  | none => m
  | some entry =>
    { m with
      nextDeviceSeq := m.nextDeviceSeq - 1
      map := (m.map.erase opId).mapRows (reindexed entry.op.deviceSeq) (opId_reindexed _) }

/-- The entries to send or to wait for. -/
def retryable (m : OutboxManager) : List OutboxEntry :=
  m.entries.filter fun entry => entry.status = .queued ∨ entry.status = .inflight

theorem mem_entries {m : OutboxManager} {entry : OutboxEntry} :
    entry ∈ m.entries ↔ entry ∈ m.map.rows := by
  rw [entries, List.mem_insertionSort]

end OutboxManager

end ObsidianSync
