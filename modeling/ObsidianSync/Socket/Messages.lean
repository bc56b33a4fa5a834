import ObsidianSync.Socket.Answers

/-!
# The messages of a connection

Every message a connection may send, and what its handler does with it: what is sent back
on the socket, what the rooms send to their participants, what goes to the other sockets of
the vault, and the server it leaves.

Listings are those of the tables, in the order of their collation.  Documents, updates and
state vectors stand for their encodings, and a cursor for the text that decodes to it.

## Main definitions

* `Store.listManifest`, `Store.listTrash`, `YjsRoomStore.listSnapshotHistory` — the listings.
* `Room.handleAwareness`, `Room.listHistory` — the calls on a room that only read it.
* `ValidatedClientMessage`, `SocketMessage` — what is received, and what is sent.
* `handleMessage` — the handler.
* `answers` — what it sends to the sockets of the device.

## Main results

* `server_handleMessage` — a message leaves what its socket events leave.
-/

namespace ObsidianSync

/-! ### Listings -/

/-- Where a page of the manifest ended. -/
structure ManifestCursor where
  pathNormalized : String
  fileId : String
  deriving DecidableEq, Repr

/-- A file in the manifest. -/
structure ManifestEntry where
  fileId : String
  type : FileType
  path : String
  contentHash : Option String
  size : Option ℕ
  blobRef : Option String
  contentEncoding : Option ContentEncryptionEncoding
  contentVV : VersionVector
  pathClock : PathClock
  epoch : ℕ
  deleted : Bool
  deriving DecidableEq

/-- The row of a file as the manifest lists it. -/
def StoredFile.toManifestEntry (file : StoredFile) : ManifestEntry :=
  { fileId := file.fileId, type := file.type, path := file.path, contentHash := file.contentHash
    size := file.size, blobRef := file.blobRef, contentEncoding := file.contentEncoding
    contentVV := file.contentVV, pathClock := file.pathClock, epoch := file.epoch
    deleted := file.deleted }

/-- The order of a listing by path and file. -/
def ManifestCursor.compare (collate : String → String → Ordering) (a b : ManifestCursor) :
    Ordering :=
  (collate a.pathNormalized b.pathNormalized).then (collate a.fileId b.fileId)

/-- The place of a row in the listing. -/
def StoredFile.cursor (file : StoredFile) : ManifestCursor :=
  { pathNormalized := file.pathNormalized, fileId := file.fileId }

/-- `PgOpDataStore.listManifest`: a page of the live files, and where the next one starts. -/
def Store.listManifest (collate : String → String → Ordering) (s : Store) (vaultId : String)
    (cursor : Option ManifestCursor) (limit : ℕ) : List ManifestEntry × Option ManifestCursor :=
  let files := (s.files.rows.filter fun file => file.vaultId = vaultId ∧ file.deleted = false)
    |>.insertionSort fun a b => (a.cursor.compare collate b.cursor).isLE = true
  let rows := (files.filter fun file =>
    cursor.all fun cursor => (file.cursor.compare collate cursor).isGT).take limit
  (rows.map StoredFile.toManifestEntry,
    if rows.length = limit then rows.getLast?.map StoredFile.cursor else none)

/-- The rows of the trash, without their order. -/
def Store.trashed (s : Store) (vaultId : String) : List StoredFile :=
  s.files.rows.filter fun file => file.vaultId = vaultId ∧ file.deleted = true

/-- Whether a time comes no later than another, a missing one last. -/
def deletedNoLater : Option Time → Option Time → Bool
  | _, none => true
  | none, some _ => false
  | some a, some b => a ≤ b

/-- `PgOpDataStore.listTrash`. -/
def Store.listTrash (s : Store) (vaultId : String) : List StoredFile :=
  (s.trashed vaultId).insertionSort fun a b => deletedNoLater a.deletedAt b.deletedAt = true

/-- A deleted file in the answer to `trash_list`. -/
structure TrashItem where
  fileId : String
  path : String
  deletedAt : Time
  size : Option ℕ
  deriving DecidableEq

/-- `TrashService.list`. -/
def trashItems (s : Store) (vaultId : String) : List TrashItem :=
  (s.listTrash vaultId).map fun file =>
    { fileId := file.fileId, path := file.path, deletedAt := file.deletedAt.getD 0
      size := file.size }

/-- A version of the history without its snapshot. -/
structure SnapshotVersionMetadata where
  versionId : ℕ
  fileId : String
  roomEpoch : ℕ
  seq : ℕ
  createdAt : Time
  reason : SnapshotHistoryReason
  deviceId : Option String
  userId : Option String
  deriving DecidableEq, Repr

/-- Whether a version comes before another. -/
def SnapshotVersionMetadata.older (a b : SnapshotVersionMetadata) : Bool :=
  a.createdAt < b.createdAt || a.createdAt = b.createdAt &&
    (a.seq < b.seq || a.seq = b.seq && a.versionId < b.versionId)

/-- `listSnapshotHistory`: a page of the history, the newest version first, and whether there
is more. -/
def YjsRoomStore.listSnapshotHistory {D : Type} (store : YjsRoomStore D) (fileId : String)
    (limit : ℕ) (beforeVersionId : Option ℕ) : List SnapshotVersionMetadata × Bool :=
  let versions : List SnapshotVersionMetadata :=
    store.history.zipIdx.map fun (version, versionId) =>
    { versionId, fileId, roomEpoch := version.roomEpoch, seq := version.seq
      createdAt := version.createdAt, reason := version.reason, deviceId := version.deviceId
      userId := version.userId }
  let sorted := versions.insertionSort fun a b => a.older b = false
  let filtered :=
    match sorted.find? fun version => some version.versionId = beforeVersionId with
    | none => sorted
    | some before => sorted.filter fun version => version.older before
  (filtered.take limit, filtered.length > limit)

/-! ### Calls that read a room -/

section

variable {D : Type} [SemilatticeSup D] [OrderBot D]

namespace Room

variable (cfg : RoomConfig D) (busy : RoomSink → Bool) (r : Room D)

/-- `handleAwareness`: what is relayed to the other participants, unless the socket it comes
from is behind. -/
def handleAwareness (deviceId : String) (roomEpoch : ℕ) (state : Bytes) :
    Outcome D (List (RoomSink × Bytes)) :=
  if state.length > maxSyncBytes then
    { result := fail .PAYLOAD_TOO_LARGE "Yjs payload too large", room := r }
  else
    match r.rejectIfStale roomEpoch deviceId with
    | some sent => { result := .ok [], room := r, sent }
    | none =>
      match r.requireParticipant deviceId with
      | .error e => { result := .error e, room := r }
      | .ok participant =>
        if busy participant.sink then { result := .ok [], room := r }
        else
          let others := r.runtime.participants.rows.filter fun other =>
            other.deviceId ≠ deviceId ∧ !busy other.sink
          { result := .ok (others.map fun other => (other.sink, state)), room := r }

/-- The versions of a note, for a device that may read it. -/
def listHistory (deviceId userId : String) (limit before : Option ℕ) :
    Except Failure (List SnapshotVersionMetadata × Bool) :=
  match requireRole cfg.vaultId deviceId userId false r.data with
  | .error e => .error e
  | .ok _ =>
    match requiredLiveFile cfg.vaultId cfg.fileId r.data with
    | .error e => .error e
    | .ok _ =>
      .ok (r.roomStore.listSnapshotHistory cfg.fileId (min (max (limit.getD 50) 1) 100) before)

end Room

/-! ### Messages -/

/-- The messages of a client that parse. -/
inductive ValidatedClientMessage (D : Type)
  | hello
  | fileOp (op : FileOp)
  | getOps (sinceSeq : ℕ)
  | promote (fileId : String)
  | demote (fileId : String)
  | yjsUpdate (fileId : String) (roomEpoch updateId : ℕ) (update : D)
  | yjsAwareness (fileId : String) (roomEpoch : ℕ) (state : Bytes)
  | yjsSync (fileId : String) (roomEpoch : ℕ) (stateVector : D)
  | yjsHeartbeat (fileId : String) (roomEpoch : ℕ)
  | leaveRoom (fileId : String) (roomEpoch : ℕ)
  | historyList (requestId fileId : String) (limit before : Option ℕ)
  | historyGet (requestId fileId : String) (versionId : ℕ)
  | historyRestore (requestId fileId : String) (versionId : ℕ)
  | blobUploadInit (hash : String) (size : ℕ)
  | blobUploadComplete (hash : String)
  | claimConflict (conflictId : String)
  | resolveConflict (conflictId : String) (resolvedHash inlineText : Option String)
      (resolvedVV : VersionVector)
  | releaseConflict (conflictId : String)
  | listTrash
  | restore (fileId : String)
  /-- The cursor as `decodeCursor` reads it: nothing, a place, or an error. -/
  | getManifest (cursor : Except SyncError (Option ManifestCursor))
  | getContent (hash : String)

/-- The messages of the server. -/
inductive SocketMessage (D : Type)
  /-- Ops, acks and rejects, conflicts, errors. -/
  | layer1 (message : ServerMessage)
  | blobUploadUrl (hash : String) (alreadyExists : Bool)
  | manifestPage (watermarkSeq : ℕ) (items : List ManifestEntry)
      (nextCursor : Option ManifestCursor)
  | content (hash : String) (data : Option Bytes)
  | trashList (items : List TrashItem)
  | room (message : RoomMessage D)
  | historyList (requestId fileId : String) (versions : List SnapshotVersionMetadata)
      (more : Bool)
  | historyVersion (requestId fileId : String) (versionId : ℕ) (text : String)
  | historyRestored (requestId fileId : String) (versionId : ℕ) (restored : Room.Restored)

/-- `errorToWire` on what a service throws. -/
def errorMessage (error : SyncError) : SocketMessage D := .layer1 (.error error.code error.message)

/-- What comes of a message. -/
structure Handled (D : Type) where
  /-- Sent on the socket it came from. -/
  replies : List (SocketMessage D) := []
  /-- Sent by rooms to their participants. -/
  sent : List (RoomSink × RoomMessage D) := []
  /-- Relayed to the other participants of a room. -/
  awareness : List (RoomSink × Bytes) := []
  /-- Sent to the sockets of the vault. -/
  broadcast : List AppliedOp := []
  server : SocketServer D

/-- What the message sends to the sockets of the device. -/
def Handled.answers (handled : Handled D) (deviceId : String) : List (SocketMessage D) :=
  handled.replies ++
    (handled.sent.filter fun message => message.1.deviceId = deviceId).map fun message =>
      .room message.2

/-- What the handlers run on: the rooms, and the collation of the tables. -/
structure SocketConfig (D : Type) [SemilatticeSup D] [OrderBot D] where
  room : RoomConfig D
  collate : String → String → Ordering

/-- The page size of the manifest. -/
def manifestPageSize : ℕ := 1000

/-- The ops sent in one message at most. -/
def opsPageSize : ℕ := 1000

namespace SocketServer

variable (s : SocketServer D)

/-- The room of a note, loaded if it is not in memory. -/
def note (vaultId fileId : String) : Room D := (s.sync.room vaultId fileId).materialize

/-- The server with another room of a note, and the data store the room wrote to. -/
def withNote (vaultId fileId : String) (r : Room D) : SocketServer D :=
  { s with sync :=
      { data := r.data
        rooms := Function.update s.sync.rooms (vaultId, fileId)
          { roomStore := r.roomStore, runtime := some r.runtime } } }

/-- What comes of a call on the room of a note. -/
def called {α : Type} (vaultId fileId : String) (outcome : Outcome D α)
    (reply : α → List (SocketMessage D)) : Handled D :=
  { replies :=
      match outcome.result with
      | .ok result => reply result
      | .error e => [errorMessage e.toWire]
    sent := outcome.sent
    broadcast := outcome.broadcast
    server := s.withNote vaultId fileId outcome.room }

/-- What comes of a service that answers or throws. -/
def answered {α ε : Type} (toWire : ε → SocketMessage D) (reply : α → SocketMessage D)
    (result : Except ε α) : Handled D :=
  { replies :=
      match result with
      | .ok result => [reply result]
      | .error e => [toWire e]
    server := s }

end SocketServer

/-! ### The handler -/

section

variable (cfg : SocketConfig D) (busy : RoomSink → Bool) (now : Time) (uuid : Uuid) (clientID : ℕ)
  (socket : ℕ) (connection : Connection) (s : SocketServer D)

/-- What comes of a `file_op`: a delete that is acknowledged closes the room of its note. -/
def handleFileOp (op : FileOp) : Handled D :=
  match s.fileOp cfg.room.platform connection now uuid op with
  | (.ok (.ack result), s) =>
    let handled : Handled D :=
      { replies := [.layer1 (fileOpAnswer (.ok (.ack result)))]
        broadcast :=
          [{ vaultSeq := result.vaultSeq, op, resultingClocks := result.resultingClocks }]
        server := s }
    if op.kind = .delete then
      let outcome := (s.note connection.vaultId op.fileId).closeDeleted
        (cfg.room.ofNote connection.vaultId op.fileId) busy
      { handled with
        sent := outcome.sent, server := s.withNote connection.vaultId op.fileId outcome.room }
    else handled
  | (result, s) => { replies := [.layer1 (fileOpAnswer result)], server := s }

/-- `handleMessage`, past `hello`. -/
def handleMessage : ValidatedClientMessage D → Handled D
  | .hello =>
    { replies := [errorMessage { code := .BAD_REQUEST, message := "hello already received" }]
      server := s }
  | .fileOp op => handleFileOp cfg busy now uuid connection s op
  -- the device is not looked up again
  | .getOps sinceSeq =>
    let ops := s.sync.data.listOps connection.vaultId sinceSeq opsPageSize
    { replies := [.layer1 (.ops ops (ops.length = opsPageSize))], server := s }
  | .blobUploadInit hash size =>
    let (result, s) := s.blobUploadInit connection hash size
    s.answered (fun e => .layer1 e.toWire) (.blobUploadUrl hash) result
  | .blobUploadComplete hash =>
    let (result, data) := completeUpload cfg.room.platform hash s.objects s.sync.data
    (s.withData data).answered (fun e => .layer1 e.toWire) (fun _ => .blobUploadUrl hash true)
      result
  | .claimConflict conflictId =>
    let (result, data) := claim connection.vaultId connection.userId connection.deviceId conflictId
      s.sync.data
    (s.withData data).answered errorMessage
      (fun conflict => .layer1 (.conflictState conflictId conflict.status)) result
  | .releaseConflict conflictId =>
    let (result, data) := release connection.vaultId connection.userId connection.deviceId
      conflictId s.sync.data
    (s.withData data).answered errorMessage
      (fun conflict => .layer1 (.conflictState conflictId conflict.status)) result
  | .resolveConflict conflictId resolvedHash inlineText resolvedVV =>
    let (result, s) := s.resolveConflict cfg.room.platform connection now conflictId resolvedHash
      inlineText resolvedVV
    s.answered errorMessage (fun conflict => .layer1 (.conflict conflict)) result
  | .getManifest cursor =>
    s.answered errorMessage
      (fun cursor =>
        let page := s.sync.data.listManifest cfg.collate connection.vaultId cursor manifestPageSize
        .manifestPage (s.sync.data.currentSeq connection.vaultId) page.1 page.2) cursor
  | .getContent hash =>
    s.answered (fun e => .layer1 e.toWire) (.content hash)
      (s.readContent cfg.room.platform connection hash)
  | .listTrash =>
    { replies := [.trashList (trashItems s.sync.data connection.vaultId)], server := s }
  | .promote fileId =>
    s.called connection.vaultId fileId
      ((s.note connection.vaultId fileId).promote (cfg.room.ofNote connection.vaultId fileId) now
        clientID connection.deviceId connection.userId socket)
      fun message => [.room message]
  | .demote fileId =>
    s.called connection.vaultId fileId
      ((s.note connection.vaultId fileId).demote (cfg.room.ofNote connection.vaultId fileId) busy
        now uuid connection.deviceId none .demoted)
      fun _ => []
  | .yjsUpdate fileId roomEpoch updateId update =>
    s.called connection.vaultId fileId
      ((s.note connection.vaultId fileId).handleUpdate (cfg.room.ofNote connection.vaultId fileId)
        busy now connection.deviceId connection.userId roomEpoch updateId update)
      fun _ => []
  | .yjsAwareness fileId roomEpoch state =>
    let outcome := (s.note connection.vaultId fileId).handleAwareness busy connection.deviceId
      roomEpoch state
    { s.called connection.vaultId fileId outcome fun _ => [] with
      awareness := outcome.result.toOption.getD [] }
  | .yjsSync fileId roomEpoch stateVector =>
    s.called connection.vaultId fileId
      ((s.note connection.vaultId fileId).handleSync (cfg.room.ofNote connection.vaultId fileId)
        connection.deviceId roomEpoch stateVector)
      fun _ => []
  | .yjsHeartbeat fileId roomEpoch =>
    s.called connection.vaultId fileId
      ((s.note connection.vaultId fileId).heartbeat (cfg.room.ofNote connection.vaultId fileId) now
        connection.deviceId roomEpoch)
      fun _ => []
  | .leaveRoom fileId roomEpoch =>
    s.called connection.vaultId fileId
      ((s.note connection.vaultId fileId).leave connection.deviceId roomEpoch)
      fun _ => []
  | .historyList requestId fileId limit before =>
    s.answered (fun e => errorMessage e.toWire)
      (fun page => .historyList requestId fileId page.1 page.2)
      ((s.note connection.vaultId fileId).listHistory (cfg.room.ofNote connection.vaultId fileId)
        connection.deviceId connection.userId limit before)
  | .historyGet requestId fileId versionId =>
    s.answered (fun e => errorMessage e.toWire) (.historyVersion requestId fileId versionId)
      ((s.note connection.vaultId fileId).getHistoryText
        (cfg.room.ofNote connection.vaultId fileId) connection.deviceId connection.userId versionId)
  | .historyRestore requestId fileId versionId =>
    s.called connection.vaultId fileId
      ((s.note connection.vaultId fileId).restoreHistoryVersion
        (cfg.room.ofNote connection.vaultId fileId) busy now uuid clientID connection.deviceId
        connection.userId versionId requestId)
      fun restored => [.historyRestored requestId fileId versionId restored]
  -- a restore is an op, so that it has a number and can be replayed
  | .restore _ =>
    { replies := [errorMessage
        { code := .UNSUPPORTED
          message := "Use file_op restore so device_seq/idempotency are preserved" }]
      server := s }

/-! ### The events of a message -/

/-- Whether the message is a delete that is acknowledged. -/
def acksDelete (op : FileOp) (result : Except SocketFailure OpApplyResult) : Bool :=
  match result with
  | .ok (.ack _) => op.kind = .delete
  | _ => false

/-- What the message is among the events of the sockets.  One that only reads is none. -/
def messageEvents : ValidatedClientMessage D → List (SocketEvent D)
  | .fileOp op =>
    .fileOp connection now uuid op ::
      if acksDelete op (s.fileOp cfg.room.platform connection now uuid op).1 then
        [.room connection.vaultId op.fileId .closeDeleted]
      else []
  | .blobUploadInit hash size => [.blobUploadInit connection hash size]
  | .blobUploadComplete hash => [.blobUploadComplete connection hash]
  | .claimConflict conflictId => [.claimConflict connection conflictId]
  | .releaseConflict conflictId => [.releaseConflict connection conflictId]
  | .resolveConflict conflictId resolvedHash inlineText resolvedVV =>
    [.resolveConflict connection now conflictId resolvedHash inlineText resolvedVV]
  | .getContent hash => [.getContent connection hash]
  | .promote fileId =>
    [.room connection.vaultId fileId
      (.promote now clientID connection.deviceId connection.userId socket)]
  | .demote fileId =>
    [.room connection.vaultId fileId (.demote now uuid connection.deviceId none .demoted)]
  | .yjsUpdate fileId roomEpoch updateId update =>
    [.room connection.vaultId fileId
      (.handleUpdate now connection.deviceId connection.userId roomEpoch updateId update)]
  | .yjsSync fileId roomEpoch stateVector =>
    [.room connection.vaultId fileId (.handleSync connection.deviceId roomEpoch stateVector)]
  | .yjsHeartbeat fileId roomEpoch =>
    [.room connection.vaultId fileId (.heartbeat now connection.deviceId roomEpoch)]
  | .leaveRoom fileId roomEpoch =>
    [.room connection.vaultId fileId (.leave connection.deviceId roomEpoch)]
  | .historyRestore requestId fileId versionId =>
    [.room connection.vaultId fileId
      (.restoreHistoryVersion now uuid clientID connection.deviceId connection.userId versionId
        requestId)]
  | .hello | .getOps _ | .yjsAwareness .. | .historyList .. | .historyGet .. | .listTrash
  | .restore _ | .getManifest _ => []

theorem server_handleFileOp (op : FileOp) :
    (handleFileOp cfg ready now uuid connection s op).server
      = Run.final (socketStep cfg.room) s
          (messageEvents cfg now uuid clientID socket connection s (.fileOp op)) := by
  unfold handleFileOp
  simp only [messageEvents, Run.final_cons, socketStep]
  cases hop : s.fileOp cfg.room.platform connection now uuid op with
  | mk result s' =>
    cases result with
    | error e => rfl
    | ok answer =>
      cases answer with
      | reject result => rfl
      | ack result =>
        simp only [acksDelete]
        by_cases hdelete : op.kind = .delete
        · simp only [hdelete, decide_true, if_true]
          rfl
        · simp only [hdelete, decide_false, if_false, Bool.false_eq_true]
          rfl

/-- **A message leaves what its events leave.**  The relay of awareness has none: it loads the
room. -/
theorem server_handleMessage (message : ValidatedClientMessage D)
    (hmessage : ∀ fileId roomEpoch state, message ≠ .yjsAwareness fileId roomEpoch state) :
    (handleMessage cfg ready now uuid clientID socket connection s message).server
      = Run.final (socketStep cfg.room) s
          (messageEvents cfg now uuid clientID socket connection s message) := by
  cases message with
  | fileOp op => exact server_handleFileOp cfg now uuid clientID socket connection s op
  | yjsAwareness fileId roomEpoch state => exact absurd rfl (hmessage fileId roomEpoch state)
  | hello | getOps | promote | demote | yjsUpdate | yjsSync | yjsHeartbeat | leaveRoom
  | historyList | historyGet | historyRestore | blobUploadInit | blobUploadComplete
  | claimConflict | resolveConflict | releaseConflict | listTrash | restore | getManifest
  | getContent => rfl

end

end

end ObsidianSync
