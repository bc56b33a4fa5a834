import ObsidianSync.Shared.Lamport
import ObsidianSync.Shared.VersionVector

/-!
# Protocol types

File ops, the clocks the server answers with, conflict records, and the errors
of the protocol.

## Main definitions

* `FileOp` — a file-level operation of Layer 1.
* `AppliedOp` — a committed op as it is broadcast, with its vault sequence.
* `ConflictRecord` — both sides of a conflict.
* `SyncError` — a refusal with its stable code.
-/

namespace ObsidianSync

/-- The wire version of op payloads. -/
def protocolVersion : ℕ := 1

/-- The types of files. -/
inductive FileType
  | note
  | attachment
  | config
  deriving DecidableEq, Repr

/-- The kinds of ops. -/
inductive OpKind
  | create
  | update
  | rename
  | delete
  | restore
  deriving DecidableEq, Repr

/-- Whether ops of the kind carry content. -/
def OpKind.isContent : OpKind → Bool
  | .create | .update | .restore => true
  | .rename | .delete => false

/-- Label of encrypted bytes. -/
structure ContentEncryptionEncoding where
  algorithm : String
  version : ℕ
  deriving DecidableEq, Repr

/-- A file-level operation. -/
structure FileOp where
  /-- Idempotency key. -/
  opId : String
  deviceId : String
  /-- Per-device sequence, without gaps. -/
  deviceSeq : ℕ
  fileId : String
  vaultId : String
  kind : OpKind
  type : FileType
  /-- The vector the editing client had observed. -/
  baseContentVV : Option VersionVector := none
  /-- The vector after the op. -/
  newContentVV : Option VersionVector := none
  contentHash : Option String := none
  size : Option ℕ := none
  contentEncoding : Option ContentEncryptionEncoding := none
  inlineText : Option String := none
  blobRef : Option String := none
  newPath : Option String := none
  pathClock : Option PathClock := none
  deleteClock : Option PathClock := none
  schemaVersion : Option ℕ := none
  deriving DecidableEq

/-- The clocks of a file after an op. -/
structure ResultingClocks where
  contentVV : Option VersionVector := none
  pathClock : Option PathClock := none
  deleteVV : Option VersionVector := none
  epoch : ℕ
  deriving DecidableEq

/-- A committed op with its vault sequence. -/
structure AppliedOp where
  vaultSeq : ℕ
  op : FileOp
  resultingClocks : ResultingClocks
  deriving DecidableEq

/-! ### Conflicts -/

/-- The kinds of conflicts. -/
inductive ConflictKind
  | content
  | delete
  | attachment
  | rename
  deriving DecidableEq, Repr

/-- How far a conflict has come. -/
inductive ConflictStatus
  | opened
  | claimed
  | resolved
  deriving DecidableEq, Repr

/-- Both sides of a conflict, and who works on it. -/
structure ConflictRecord where
  conflictId : String
  vaultId : String
  fileId : String
  kind : ConflictKind
  baseHash : Option String
  oursHash : Option String
  theirsHash : Option String
  oursVV : Option VersionVector
  theirsVV : Option VersionVector
  status : ConflictStatus
  claimedBy : Option String := none
  resolvedBy : Option String := none
  resolvedHash : Option String := none
  resolvedVV : Option VersionVector := none
  deriving DecidableEq

/-! ### Errors -/

/-- The codes of errors. -/
inductive ErrorCode
  | UPGRADE_REQUIRED
  | BAD_REQUEST
  | UNSUPPORTED
  | UNAUTHENTICATED
  | TOKEN_EXPIRED
  | FORBIDDEN
  | DEVICE_REVOKED
  | SEQ_GAP
  | STALE
  | ILLEGAL_PATH
  | BLOB_MISSING
  | BLOB_HASH_MISMATCH
  | FILE_ACTIVE
  | CONFLICT_PENDING
  | NOT_FOUND
  | ROOM_NOT_FOUND
  | ROOM_EPOCH_STALE
  | NOT_PARTICIPANT
  | QUOTA_EXCEEDED
  | RATE_LIMITED
  | PAYLOAD_TOO_LARGE
  | CONFLICT_NOT_CLAIMED
  | CONFLICT_ALREADY_RESOLVED
  | INTERNAL
  deriving DecidableEq, Repr

/-- The code as it stands on the wire. -/
def ErrorCode.text : ErrorCode → String
  | .UPGRADE_REQUIRED => "UPGRADE_REQUIRED"
  | .BAD_REQUEST => "BAD_REQUEST"
  | .UNSUPPORTED => "UNSUPPORTED"
  | .UNAUTHENTICATED => "UNAUTHENTICATED"
  | .TOKEN_EXPIRED => "TOKEN_EXPIRED"
  | .FORBIDDEN => "FORBIDDEN"
  | .DEVICE_REVOKED => "DEVICE_REVOKED"
  | .SEQ_GAP => "SEQ_GAP"
  | .STALE => "STALE"
  | .ILLEGAL_PATH => "ILLEGAL_PATH"
  | .BLOB_MISSING => "BLOB_MISSING"
  | .BLOB_HASH_MISMATCH => "BLOB_HASH_MISMATCH"
  | .FILE_ACTIVE => "FILE_ACTIVE"
  | .CONFLICT_PENDING => "CONFLICT_PENDING"
  | .NOT_FOUND => "NOT_FOUND"
  | .ROOM_NOT_FOUND => "ROOM_NOT_FOUND"
  | .ROOM_EPOCH_STALE => "ROOM_EPOCH_STALE"
  | .NOT_PARTICIPANT => "NOT_PARTICIPANT"
  | .QUOTA_EXCEEDED => "QUOTA_EXCEEDED"
  | .RATE_LIMITED => "RATE_LIMITED"
  | .PAYLOAD_TOO_LARGE => "PAYLOAD_TOO_LARGE"
  | .CONFLICT_NOT_CLAIMED => "CONFLICT_NOT_CLAIMED"
  | .CONFLICT_ALREADY_RESOLVED => "CONFLICT_ALREADY_RESOLVED"
  | .INTERNAL => "INTERNAL"

/-- The details an error may carry. -/
inductive ErrorDetails
  /-- The device sequence the server expects. -/
  | expected (deviceSeq : ℕ)
  /-- What the client should do instead. -/
  | hint (action : String)
  /-- When a refused request may be made again. -/
  | retryAfterMs (ms : ℕ)
  deriving DecidableEq, Repr

/-- A refusal with its code. -/
structure SyncError where
  code : ErrorCode
  message : String
  details : Option ErrorDetails := none
  deriving DecidableEq, Repr

/-! ### Messages -/

/-- The file-level messages of a client. -/
inductive ClientMessage
  | hello (deviceId vaultId : String) (lastSeq : ℕ)
  | fileOp (op : FileOp)
  | getOps (sinceSeq : ℕ)
  | promote (fileId : String)
  deriving DecidableEq

/-- The file-level messages of the server. -/
inductive ServerMessage
  | welcome (currentSeq : ℕ)
  | ops (ops : List AppliedOp) (more : Bool)
  | opAck (opId : String) (vaultSeq : ℕ) (resultingClocks : ResultingClocks)
      (conflictId : Option String)
  | reject (opId : Option String) (code : ErrorCode) (message : String)
      (details : Option ErrorDetails)
  | conflict (conflict : ConflictRecord)
  | conflictState (conflictId : String) (status : ConflictStatus)
  | error (code : ErrorCode) (message : String)
  deriving DecidableEq

end ObsidianSync
