import ObsidianSync.Lib.Crdt
import ObsidianSync.Server.System

/-!
# The room manager

While a note is edited together it has a room: a document the server merges all
updates into, relays to the participants, and flushes to the note when the room
closes.  A room that is not active is dormant.  The calls on a room run under its
lock, one after the other, and share the data store with the op processor; the
rooms of different files share nothing else, so one room is all there is here.

Documents and updates stand for their encodings, a document for its own state
vector as well, and versions of the history are named by their position in it.
The current time, the ids Yjs and the platform draw, and which sockets are behind
are arguments.

## Main definitions

* `PersistedYjsRoom`, `YjsRoomStore` — what is stored about a room.
* `RuntimeRoom`, `Room` — a room in memory, and with the stores it writes to.
* `RoomServer`, `materialize` — the server before and after the room is loaded.
* `Room.promote`, `Room.handleUpdate`, `Room.handleSync`, `Room.leave`,
  `Room.demoteLocked`, `Room.restoreHistoryVersion`, … — as the source has them.
* `RoomEvent`, `roomStep` — the calls, and the ops and resolutions between them.
-/

namespace ObsidianSync

/-! ### Stored rooms -/

/-- What is stored about a room: its incarnation, its lease, and the last snapshot
of its document. -/
structure PersistedYjsRoom (D : Type) where
  epoch : ℕ := 0
  active : Bool := false
  seeded : Bool := false
  leaseOwner : Option String := none
  leaseUntil : Option Time := none
  activationBaseVV : VersionVector := VersionVector.emptyVV
  activationBaseHash : Option String := none
  nextSeq : ℕ := 1
  snapshot : Option D := none
  compactedThroughSeq : ℕ := 0

/-- A room that was never promoted. -/
def emptyRoom {D : Type} : PersistedYjsRoom D := {}

/-- A row of `yjs_updates`. -/
structure StoredYjsUpdate (D : Type) where
  roomEpoch : ℕ
  seq : ℕ
  deviceId : String
  update : D
  createdAt : Time

/-- Why a version was saved. -/
inductive SnapshotHistoryReason
  | activation
  | cadence
  | compact
  | demote
  | restore
  deriving DecidableEq, Repr

/-- A version of the history. -/
structure YjsSnapshotVersion (D : Type) where
  roomEpoch : ℕ
  seq : ℕ
  createdAt : Time
  reason : SnapshotHistoryReason
  deviceId : Option String := none
  userId : Option String := none
  snapshot : D

/-- The room store: the room, the updates it took, and the versions of its history. -/
structure YjsRoomStore (D : Type) where
  room : Option (PersistedYjsRoom D) := none
  updates : List (StoredYjsUpdate D) := []
  history : List (YjsSnapshotVersion D) := []

namespace YjsRoomStore

variable {D : Type} (store : YjsRoomStore D)

/-- The row of the room is written. -/
def saveRoom (room : PersistedYjsRoom D) : YjsRoomStore D := { store with room := some room }

/-- An update is stored. -/
def appendUpdate (update : StoredYjsUpdate D) : YjsRoomStore D :=
  { store with updates := store.updates ++ [update] }

/-- The updates of an incarnation after a sequence number. -/
def listUpdates (roomEpoch afterSeq : ℕ) : List (StoredYjsUpdate D) :=
  store.updates.filter fun update => update.roomEpoch = roomEpoch ∧ update.seq > afterSeq

/-- Keep a snapshot of the room's incarnation, and as a version of the history. -/
def saveSnapshot (version : YjsSnapshotVersion D) : YjsRoomStore D :=
  { store with
    room := store.room.map fun room =>
      if room.epoch = version.roomEpoch then
        { room with snapshot := some version.snapshot, compactedThroughSeq := version.seq }
      else room
    history := store.history ++ [version] }

/-- A version of the history. -/
def getSnapshotVersion (versionId : ℕ) : Option (YjsSnapshotVersion D) :=
  store.history[versionId]?

/-- The updates of an incarnation up to a sequence number are deleted. -/
def deleteUpdatesThrough (roomEpoch seq : ℕ) : YjsRoomStore D :=
  { store with
    updates := store.updates.filter fun update => update.roomEpoch ≠ roomEpoch ∨ update.seq > seq }

end YjsRoomStore

/-! ### Rooms in memory -/

/-- The connection of a device that messages are sent to. -/
structure RoomSink where
  deviceId : String
  connection : ℕ
  deriving DecidableEq, Repr

/-- A device in a room. -/
structure Participant where
  deviceId : String
  userId : String
  role : Role
  sink : RoomSink
  /-- The vector of the note when the device joined. -/
  joinedVV : VersionVector
  rateWindowStarted : Time
  updatesInWindow : ℕ

/-- The state of a room in memory. -/
inductive RuntimeState
  | active
  | closing
  | closed
  deriving DecidableEq, Repr

/-- A room in memory. -/
structure RuntimeRoom (D : Type) where
  persisted : PersistedYjsRoom D
  doc : D
  participants : Table Participant.deviceId := Table.empty
  closingSinks : Table RoomSink.deviceId := Table.empty
  state : RuntimeState

/-- Why a room is closed. -/
inductive RoomClosedReason
  | demoted
  | leaseExpired
  | deleted
  | evicted
  | epochStale
  deriving DecidableEq, Repr

/-- The messages of the server about a room. -/
inductive RoomMessage (D : Type)
  | roomState (roomEpoch : ℕ) (yjsSnapshot : D)
  | yjsUpdate (roomEpoch seq : ℕ) (update : D) (source : Option String)
  | yjsAck (roomEpoch updateId seq : ℕ)
  | roomClosed (roomEpoch : ℕ) (reason : RoomClosedReason) (finalHash : Option String)
  | historyRestored (requestId : String) (versionId : ℕ) (text : String)
  | error (error : SyncError)

/-- The options of the manager. -/
structure RoomManagerOptions where
  leaseMs : ℕ := 60000
  maxUpdates : ℕ := 120
  windowMs : ℕ := 10000
  snapshotEveryUpdates : ℕ := 20

/-- The note a room is for, and what the manager runs on. -/
structure RoomConfig (D : Type) [SemilatticeSup D] [OrderBot D] where
  platform : Platform
  crdt : Crdt D
  vaultId : String
  fileId : String
  options : RoomManagerOptions := {}
  /-- The length of the encoding of an update. -/
  updateBytes : D → ℕ
  /-- The length of the encoding of a state vector. -/
  vectorBytes : D → ℕ

/-- `TEXT_NAME`: the root the manager keeps the note in. -/
def textName : String := "obsidian"

/-- The limit of an update. -/
def maxUpdateBytes : ℕ := 2000000

/-- The limit of a state vector and of an awareness state. -/
def maxSyncBytes : ℕ := 200000

/-- A room in memory and the stores it writes to. -/
structure Room (D : Type) where
  data : Store
  roomStore : YjsRoomStore D
  runtime : RuntimeRoom D

/-- What a call on a room returns or throws, leaves, sends to sockets, and
broadcasts to the vault. -/
structure Outcome (D : Type) (α : Type) where
  result : Except Failure α
  room : Room D
  sent : List (RoomSink × RoomMessage D) := []
  broadcast : List AppliedOp := []

/-- The server, with the room if it is in memory. -/
structure RoomServer (D : Type) where
  data : Store
  roomStore : YjsRoomStore D := {}
  runtime : Option (RuntimeRoom D) := none

/-! ### Checks -/

/-- The role of a device's user, if it may do what it asks for. -/
def requireRole (vaultId deviceId userId : String) (editor : Bool) (data : Store) :
    Except Failure Role :=
  match data.getDevice deviceId with
  | none => fail .UNAUTHENTICATED "Invalid device"
  | some device =>
    if device.vaultId ≠ vaultId ∨ device.revoked then fail .UNAUTHENTICATED "Invalid device"
    else
      match data.getRole vaultId userId with
      | none => fail .FORBIDDEN "No vault role"
      | some role =>
        -- a viewer may read along
        if editor && !role.canWrite then fail .FORBIDDEN "Write permission required" else .ok role

/-- The row of a file that must be live. -/
def requiredLiveFile (vaultId fileId : String) (data : Store) : Except Failure StoredFile :=
  match data.getFile vaultId fileId with
  | none => fail .NOT_FOUND "File not found"
  | some file => if file.deleted then fail .NOT_FOUND "File not found" else .ok file

/-- `error instanceof SyncError ? … : INTERNAL`. -/
def Failure.toWire : Failure → SyncError
  | .sync error => error
  | .path error => { code := .INTERNAL, message := error.message }

/-! ### Ids -/

/-- `roomKey` and an epoch, digested into the id of the flush of that epoch. -/
def stableOpId (P : Platform) (vaultId fileId : String) (epoch : ℕ) : String :=
  "00000000-0000-4000-8000-" ++
    String.ofList ((toHex (P.sha256
      (encodeText (vaultId ++ ":" ++ fileId ++ ":" ++ toString epoch))).1).take 12)

/-- `Number.parseInt(text, 16)` on a text without minus signs: the number that its first digits
make, or `NaN` where there are none. -/
def parseIntHex (text : List Char) : Option ℕ :=
  let text := text.dropWhile isTrimmed
  let text := if text.head? = some '+' then text.drop 1 else text
  let text := if (text.take 2).map Char.toLower = ['0', 'x'] then text.drop 2 else text
  match text.takeWhile fun c => hexDigits.contains c.toLower with
  | [] => none
  | digits => some (digits.foldl (fun n c => 16 * n + hexDigits.idxOf c.toLower) 0)

/-- The last twelve digits of a UUID as a number, at least 1.  `NaN` is 0 here: no sequence
number, for which the processor refuses the op as well. -/
def deviceSeqFromUuid (value : String) : ℕ :=
  let digits := value.toList.filter fun c => c ≠ '-'
  match parseIntHex (digits.drop (digits.length - 12)) with
  | none => 0
  | some n => max 1 n

example : deviceSeqFromUuid "00000000-0000-4000-8000-00000000001f" = 31 ∧
    deviceSeqFromUuid "r1" = 0 := by decide +kernel

/-! ### Lease bookkeeping -/

/-- The row half of `saveRuntime`: write the row back with another lease. -/
def setActiveUntil (vaultId fileId : String) (activeUntil : Option Time) (data : Store) : Store :=
  match data.getFile vaultId fileId with
  | none => data
  | some file => data.saveFile { file with activeUntil }

/-- The end of `demoteLocked` and `closeWithoutFlush`: drop the lease of the row, if
it has one. -/
def clearActiveUntil (vaultId fileId : String) (data : Store) : Store :=
  match data.getFile vaultId fileId with
  | none => data
  | some file =>
    if file.activeUntil.isSome then data.saveFile { file with activeUntil := none } else data

section

variable {D : Type} [SemilatticeSup D] [OrderBot D] (cfg : RoomConfig D)

/-- `textFromSnapshot`. -/
def textFromSnapshot (snapshot : D) : String := cfg.crdt.content textName (⊥ ⊔ snapshot)

/-- The document `loadRuntime` makes: the snapshot, and the updates after it. -/
def loadDoc (store : YjsRoomStore D) (persisted : PersistedYjsRoom D) : D :=
  let updates :=
    -- a room that was never seeded has no updates to replay
    if persisted.seeded then store.listUpdates persisted.epoch persisted.compactedThroughSeq else []
  updates.foldl (fun doc update => doc ⊔ update.update) (⊥ ⊔ persisted.snapshot.getD ⊥)

/-- `loadRuntime`: the room as it is stored, with nobody in it. -/
def loadRuntime (store : YjsRoomStore D) : RuntimeRoom D :=
  let persisted := store.room.getD emptyRoom
  { persisted
    doc := loadDoc store persisted
    state := if persisted.active then .active else .closed }

/-- The room in memory, loaded if it is not. -/
def RoomServer.materialize (s : RoomServer D) : Room D :=
  { data := s.data, roomStore := s.roomStore, runtime := s.runtime.getD (loadRuntime s.roomStore) }

/-- The server with the room in memory. -/
def Room.server (r : Room D) : RoomServer D :=
  { data := r.data, roomStore := r.roomStore, runtime := some r.runtime }

namespace Room

/-! ### Messages -/

variable (busy : RoomSink → Bool) (r : Room D)

/-- `roomState`. -/
def roomState : RoomMessage D := .roomState r.runtime.persisted.epoch r.runtime.doc

/-- To every participant but one, except where the socket is behind. -/
def relay (sourceDeviceId : String) (message : RoomMessage D) : List (RoomSink × RoomMessage D) :=
  -- a participant that is skipped here learns of the gap by the next number
  (r.runtime.participants.rows.filter fun participant =>
    participant.deviceId ≠ sourceDeviceId ∧ !busy participant.sink).map fun participant =>
      (participant.sink, message)

/-- To the participants and to those who left. -/
def broadcastRoom (message : RoomMessage D) (includeBackpressured : Bool) :
    List (RoomSink × RoomMessage D) :=
  let sinks := r.runtime.participants.rows.map Participant.sink
  let left := r.runtime.closingSinks.rows.filter fun sink => sink ∉ sinks
  ((sinks ++ left).filter fun sink => includeBackpressured || !busy sink).map fun sink =>
    (sink, message)

/-- `rejectIfStale`: what is sent if the message is of another incarnation, and
nothing if it is of this one. -/
def rejectIfStale (epoch : ℕ) (deviceId : String) : Option (List (RoomSink × RoomMessage D)) :=
  let answer (message : RoomMessage D) : List (RoomSink × RoomMessage D) :=
    match r.runtime.participants.get? deviceId with
    | none => []
    | some participant => [(participant.sink, message)]
  -- another incarnation is open: the device gets its document instead
  if r.runtime.persisted.active ∧ r.runtime.persisted.epoch ≠ epoch then some (answer r.roomState)
  else if r.runtime.persisted.active = false ∨ r.runtime.state = .closed then
    some (answer (.roomClosed epoch .epochStale none))
  else none

/-- The participant that a device must be. -/
def requireParticipant (deviceId : String) : Except Failure Participant :=
  match r.runtime.participants.get? deviceId with
  | none => fail .NOT_PARTICIPANT "Device is not a room participant"
  | some participant => .ok participant

/-- `checkRateLimit`: the participant with the update counted, and whether that is
too many. -/
def checkRateLimit (now : Time) (participant : Participant) : Participant × Bool :=
  let participant :=
    if now - participant.rateWindowStarted ≥ cfg.options.windowMs then
      { participant with rateWindowStarted := now, updatesInWindow := 0 }
    else participant
  -- the update that is refused counts as well
  let participant := { participant with updatesInWindow := participant.updatesInWindow + 1 }
  (participant, participant.updatesInWindow > cfg.options.maxUpdates)

/-! ### Saving -/

/-- A room with a participant added or changed. -/
def withParticipant (participant : Participant) : Room D :=
  { r with runtime := { r.runtime with
      participants := r.runtime.participants.set participant } }

/-- A room with other things stored about it. -/
def withPersisted (persisted : PersistedYjsRoom D) : Room D :=
  { r with runtime := { r.runtime with persisted } }

/-- The room is stored, and its lease goes into the row. -/
def saveRuntime : Room D :=
  let persisted := r.runtime.persisted
  { r with
    roomStore := r.roomStore.saveRoom persisted
    data := setActiveUntil cfg.vaultId cfg.fileId
      (if persisted.active then persisted.leaseUntil else none) r.data }

/-- The document is stored as a snapshot and as a version. -/
def captureSnapshot (now : Time) (seq : ℕ) (reason : SnapshotHistoryReason)
    (deviceId : Option String := none) (userId : Option String := none) : Room D :=
  let persisted := r.runtime.persisted
  { r with
    roomStore := r.roomStore.saveSnapshot
      { roomEpoch := persisted.epoch, seq, createdAt := now, reason, deviceId, userId,
        snapshot := r.runtime.doc }
    runtime := { r.runtime with
      persisted := { persisted with snapshot := some r.runtime.doc, compactedThroughSeq := seq } } }

/-! ### Activation -/

/-- The document of a new incarnation: the last snapshot, or the text of the note. -/
def activationDoc (clientID : ℕ) (snapshot : Option D) (file : StoredFile) (data : Store) : D :=
  match snapshot with
  -- the text of the note is not compared with what the last epoch left
  | some snapshot => ⊥ ⊔ snapshot
  | none =>
    match
      (if truthy file.contentHash then data.getContent (file.contentHash.getD "") else none) with
    | some bytes => ⊥ ⊔ cfg.crdt.change clientID textName (decodeText cfg.platform bytes) ⊥
    | none => ⊥

/-- The room begins another incarnation. -/
def activate (now : Time) (clientID : ℕ) (file : StoredFile) (deviceId : String) : Room D :=
  let persisted := r.runtime.persisted
  -- a room that was once seeded goes on from its epoch
  let nextEpoch := if persisted.seeded then persisted.epoch + 1 else max 1 (persisted.epoch + 1)
  let doc := activationDoc cfg clientID persisted.snapshot file r.data
  let persisted : PersistedYjsRoom D :=
    { epoch := nextEpoch, active := true, seeded := true, leaseOwner := some deviceId
      leaseUntil := some (now + cfg.options.leaseMs), activationBaseVV := file.contentVV
      activationBaseHash := file.contentHash, nextSeq := 1, snapshot := some doc
      compactedThroughSeq := 0 }
  let r := saveRuntime cfg { r with runtime := { r.runtime with persisted, doc } }
  { r with
    roomStore := r.roomStore.saveSnapshot
      { roomEpoch := nextEpoch, seq := 0, createdAt := now, reason := .activation,
        deviceId := some deviceId, snapshot := doc } }

/-- Whether `promote` activates the room before it joins it. -/
def activates : Bool := !r.runtime.persisted.active || r.runtime.state = .closed

/-- The room stays open for another lease, held by the device unless it is held. -/
def extendLease (now : Time) (deviceId : String) : Room D :=
  let persisted := r.runtime.persisted
  saveRuntime cfg
    { r with runtime := { r.runtime with
        state := .active
        persisted := { persisted with
          leaseUntil := some (now + cfg.options.leaseMs)
          leaseOwner := if truthy persisted.leaseOwner then persisted.leaseOwner
            else some deviceId } } }

/-- The device is no longer one that left. -/
def welcomeBack (deviceId : String) : Room D :=
  { r with runtime := { r.runtime with
      closingSinks := r.runtime.closingSinks.erase deviceId } }

/-- A participant that joins the room of a note now. -/
def newParticipant (now : Time) (file : StoredFile) (deviceId userId : String) (connection : ℕ)
    (role : Role) : Participant :=
  { deviceId, userId, role, sink := { deviceId, connection }, joinedVV := file.contentVV,
    rateWindowStarted := now, updatesInWindow := 0 }

/-- The end of `promote`: the lease is extended and the device becomes a participant. -/
def join (now : Time) (file : StoredFile) (deviceId userId : String) (connection : ℕ) :
    Outcome D (RoomMessage D) :=
  let r := (r.extendLease cfg now deviceId).welcomeBack deviceId
  -- read again after the lease was written: the role may be gone by now
  match requireRole cfg.vaultId deviceId userId false r.data with
  | .error e => { result := .error e, room := r }
  | .ok role =>
    let r := r.withParticipant (newParticipant now file deviceId userId connection role)
    { result := .ok r.roomState, room := r }

/-- A device joins the room, which is activated if it is dormant. -/
def promote (now : Time) (clientID : ℕ) (deviceId userId : String) (connection : ℕ) :
    Outcome D (RoomMessage D) :=
  match requireRole cfg.vaultId deviceId userId true r.data with
  | .error e => { result := .error e, room := r }
  | .ok _ =>
    match requiredLiveFile cfg.vaultId cfg.fileId r.data with
    | .error e => { result := .error e, room := r }
    | .ok file =>
      if file.contentEncoding.isSome then
        { result := fail .UNSUPPORTED
            "Layer 2 realtime collaboration is disabled for encrypted content", room := r }
      else
        -- a room that only waits to be closed is joined as it is
        let r := if r.activates then r.activate cfg now clientID file deviceId else r
        r.join cfg now file deviceId userId connection

/-! ### Updates -/

/-- The part of `handleUpdate` after its checks: the update is logged, merged,
acknowledged and relayed. -/
def acceptUpdate (now : Time) (participant : Participant) (userId : String) (updateId : ℕ)
    (update : D) : Outcome D Unit :=
  let persisted := r.runtime.persisted
  let seq := persisted.nextSeq
  -- logged before it is merged: the merge may throw on what cannot be read
  let roomStore := r.roomStore.appendUpdate
    { roomEpoch := persisted.epoch, seq, deviceId := participant.deviceId, update,
      createdAt := now }
  let merged : Room D :=
    { r with
      roomStore
      runtime := { r.runtime with
        doc := r.runtime.doc ⊔ update
        persisted := { persisted with
          nextSeq := seq + 1
          leaseOwner := persisted.leaseOwner.or (some participant.deviceId)
          -- every update renews the lease
          leaseUntil := some (now + cfg.options.leaseMs) } } }
  let captured :=
    if cfg.options.snapshotEveryUpdates > 0 ∧ seq % cfg.options.snapshotEveryUpdates = 0 then
      merged.captureSnapshot now seq .cadence (some participant.deviceId) (some userId)
    else merged
  let saved := captured.saveRuntime cfg
  { result := .ok ()
    room := saved
    sent := (participant.sink, .yjsAck persisted.epoch updateId seq) ::
      saved.relay busy participant.deviceId
        (.yjsUpdate persisted.epoch seq update (some participant.deviceId)) }

/-- An update of a participant. -/
def handleUpdate (now : Time) (deviceId userId : String) (roomEpoch updateId : ℕ) (update : D) :
    Outcome D Unit :=
  match requireRole cfg.vaultId deviceId userId true r.data with
  | .error e => { result := .error e, room := r }
  | .ok _ =>
    if cfg.updateBytes update > maxUpdateBytes then
      { result := fail .PAYLOAD_TOO_LARGE "Yjs payload too large", room := r }
    else
      match r.rejectIfStale roomEpoch deviceId with
      -- not an error: the device is told which incarnation there is
      | some sent => { result := .ok (), room := r, sent }
      | none =>
        match r.requireParticipant deviceId with
        | .error e => { result := .error e, room := r }
        | .ok participant =>
          -- the role the device joined with; the present one was read above
          if !participant.role.canWrite then
            { result := fail .FORBIDDEN "Write permission required", room := r }
          else
            let (participant, exceeded) := checkRateLimit cfg now participant
            let r := r.withParticipant participant
            if exceeded then { result := fail .RATE_LIMITED "Too many Yjs updates", room := r }
            else r.acceptUpdate cfg busy now participant userId updateId update

/-- `handleSync`: the participant is sent what its document lacks. -/
def handleSync (deviceId : String) (roomEpoch : ℕ) (stateVector : D) : Outcome D Unit :=
  if cfg.vectorBytes stateVector > maxSyncBytes then
    { result := fail .PAYLOAD_TOO_LARGE "Yjs payload too large", room := r }
  else
    match r.rejectIfStale roomEpoch deviceId with
    | some sent => { result := .ok (), room := r, sent }
    | none =>
      match r.requireParticipant deviceId with
      | .error e => { result := .error e, room := r }
      | .ok participant =>
        { result := .ok ()
          room := r
          sent := [(participant.sink, .yjsUpdate r.runtime.persisted.epoch
            (r.runtime.persisted.nextSeq - 1) (cfg.crdt.diff r.runtime.doc stateVector) none)] }

/-- A participant keeps the lease of the room running. -/
def heartbeat (now : Time) (deviceId : String) (roomEpoch : ℕ) : Outcome D Unit :=
  match r.rejectIfStale roomEpoch deviceId with
  | some sent => { result := .ok (), room := r, sent }
  | none =>
    match r.requireParticipant deviceId with
    | .error e => { result := .error e, room := r }
    | .ok _ =>
      -- the role is not read again: a heartbeat needs the participant only
      let persisted := r.runtime.persisted
      { result := .ok ()
        room := (r.withPersisted
          { persisted with leaseUntil := some (now + cfg.options.leaseMs) }).saveRuntime cfg }

/-! ### Leaving -/

/-- `scheduleClosingIfEmpty`, up to the timer. -/
def scheduleClosingIfEmpty : Room D :=
  if r.runtime.participants.rows.isEmpty && r.runtime.persisted.active then
    { r with runtime := { r.runtime with state := .closing } }
  else r

/-- The participant is removed, and its socket kept for the end of the room. -/
def removeParticipant (participant : Participant) : Room D :=
  { r with runtime := { r.runtime with
      participants := r.runtime.participants.erase participant.deviceId
      closingSinks := r.runtime.closingSinks.set participant.sink } }.scheduleClosingIfEmpty

/-- A participant leaves. -/
def leave (deviceId : String) (roomEpoch : ℕ) : Outcome D Unit :=
  match r.rejectIfStale roomEpoch deviceId with
  | some sent => { result := .ok (), room := r, sent }
  | none =>
    match r.requireParticipant deviceId with
    | .error e => { result := .error e, room := r }
    | .ok participant => { result := .ok (), room := r.removeParticipant participant }

/-- A device is gone from all its rooms. -/
def disconnect (deviceId : String) : Room D :=
  match r.runtime.participants.get? deviceId with
  | none => r
  | some participant => r.removeParticipant participant

/-! ### Closing -/

/-- The room is dormant and nobody is in it. -/
def closed (persisted : PersistedYjsRoom D) : RuntimeRoom D :=
  { r.runtime with
    persisted, participants := Table.empty, closingSinks := Table.empty, state := .closed }

/-- The op that writes the document of a room to its note. -/
def flushOp : FileOp :=
  let persisted := r.runtime.persisted
  let text := cfg.crdt.content textName r.runtime.doc
  -- what a restore brought to the note since is not in these vectors
  let participantVV := r.runtime.participants.rows.foldl
    (fun vv participant => VersionVector.join vv participant.joinedVV) persisted.activationBaseVV
  { opId := stableOpId cfg.platform cfg.vaultId cfg.fileId persisted.epoch
    deviceId := "collab:" ++ cfg.fileId
    -- one flush for each incarnation
    deviceSeq := persisted.epoch
    fileId := cfg.fileId
    vaultId := cfg.vaultId
    kind := .update
    type := .note
    baseContentVV := some persisted.activationBaseVV
    newContentVV := some (VersionVector.bump participantVV ("collab:" ++ cfg.fileId))
    contentHash := some (contentHashText cfg.platform text)
    inlineText := some text
    size := some (encodeText text).length
    schemaVersion := some 1 }

/-- The part of `demoteLocked` after the flush was acknowledged. -/
def finishDemote (now : Time) (reason : RoomClosedReason) (hash : String) :
    Room D × List (RoomSink × RoomMessage D) :=
  let captured := r.captureSnapshot now (r.runtime.persisted.nextSeq - 1) .demote
    r.runtime.persisted.leaseOwner
  let persisted : PersistedYjsRoom D :=
    { captured.runtime.persisted with active := false, leaseOwner := none, leaseUntil := none }
  let saved := (captured.withPersisted persisted).saveRuntime cfg
  ({ saved with
      runtime := saved.closed persisted
      data := clearActiveUntil cfg.vaultId cfg.fileId saved.data },
    saved.broadcastRoom busy (.roomClosed persisted.epoch reason (some hash)) true)

/-- The text goes back into the note by an op, and the room is closed. -/
def demoteLocked (now : Time) (uuid : Uuid) (reason : RoomClosedReason) : Outcome D String :=
  if !r.runtime.persisted.active then
    { result := .ok (r.runtime.persisted.activationBaseHash.getD ""), room := r }
  else
    let op := r.flushOp cfg
    let hash := contentHashText cfg.platform (cfg.crdt.content textName r.runtime.doc)
    match process cfg.platform now uuid op none r.data with
    | (.error e, data) => { result := .error (.path e), room := { r with data } }
    -- the room stays open, and whoever asked gets the error
    | (.ok (.reject answer), data) =>
      { result := fail answer.code ("Collab flush failed: " ++ answer.message) answer.details
        room := { r with data } }
    | (.ok (.ack answer), data) =>
      let (room, sent) := finishDemote cfg busy { r with data } now reason hash
      { result := .ok hash
        room
        sent
        broadcast :=
          [{ vaultSeq := answer.vaultSeq, op, resultingClocks := answer.resultingClocks }] }

/-- A device asks for the close of the room. -/
def demote (now : Time) (uuid : Uuid) (deviceId : String) (roomEpoch : Option ℕ)
    (reason : RoomClosedReason) : Outcome D (Option String) :=
  match roomEpoch with
  | some epoch =>
    -- another incarnation is not closed on its behalf
    if r.runtime.persisted.epoch ≠ epoch then
      { result := .ok none, room := r, sent := (r.rejectIfStale epoch deviceId).getD [] }
    else
      let outcome := r.demoteLocked cfg busy now uuid reason
      { outcome with result := outcome.result.map some }
  | none =>
    let outcome := r.demoteLocked cfg busy now uuid reason
    { outcome with result := outcome.result.map some }

/-- The room is closed, and its text is not written back. -/
def closeWithoutFlush (reason : RoomClosedReason) : Outcome D Unit :=
  let persisted := r.runtime.persisted
  let persisted : PersistedYjsRoom D :=
    { persisted with active := false, leaseOwner := none, leaseUntil := none }
  let saved := (r.withPersisted persisted).saveRuntime cfg
  { result := .ok ()
    room :=
      { saved with
        runtime := saved.closed persisted
        -- the row was written by `saveRuntime` already
        data := clearActiveUntil cfg.vaultId cfg.fileId saved.data }
    sent := saved.broadcastRoom busy (.roomClosed persisted.epoch reason none) true }

/-- The room of a deleted note is closed. -/
def closeDeleted : Outcome D Unit :=
  if r.runtime.persisted.active then r.closeWithoutFlush cfg busy .deleted
  else { result := .ok (), room := r }

/-- A close whose failure is caught and told to the sockets. -/
def demoteCaught (now : Time) (uuid : Uuid) (reason : RoomClosedReason) (failed : Room D → Room D) :
    Outcome D Unit :=
  let outcome := r.demoteLocked cfg busy now uuid reason
  match outcome.result with
  | .ok _ => { outcome with result := .ok () }
  | .error e =>
    let r := failed outcome.room
    { result := .ok (), room := r, sent := r.broadcastRoom busy (.error e.toWire) true }

/-- The timer of `scheduleClosingIfEmpty` runs out. -/
def closingTimer (now : Time) (uuid : Uuid) : Outcome D Unit :=
  if r.runtime.participants.rows.isEmpty && r.runtime.persisted.active then
    r.demoteCaught cfg busy now uuid .demoted fun r =>
      { r with runtime := { r.runtime with state := .active } }
  else { result := .ok (), room := r }

/-- The manager closes its rooms. -/
def closeAll (now : Time) (uuid : Uuid) (reason : RoomClosedReason) : Outcome D Unit :=
  if !r.runtime.persisted.active then { result := .ok (), room := r }
  else r.demoteCaught cfg busy now uuid reason id

/-- `sweepExpired`: a room whose lease ran out with nobody in it is closed. -/
def sweepExpired (now : Time) (uuid : Uuid) : Outcome D Unit :=
  -- with a participant in it the room outlives its lease
  if r.runtime.persisted.active && r.runtime.participants.rows.isEmpty &&
      r.runtime.persisted.leaseUntil.any fun leaseUntil => leaseUntil ≤ now then
    let outcome := r.demoteLocked cfg busy now uuid .leaseExpired
    { outcome with result := outcome.result.map fun _ => () }
  else { result := .ok (), room := r }

/-! ### History -/

/-- The updates up to a sequence number are folded into a snapshot. -/
def compact (now : Time) (throughSeq : Option ℕ) : Outcome D ℕ :=
  let seq := throughSeq.getD (r.runtime.persisted.nextSeq - 1)
  -- the document is taken as it is, whatever number was asked for
  let captured := r.captureSnapshot now seq .compact
  let pruned := { captured with
    roomStore := captured.roomStore.deleteUpdatesThrough r.runtime.persisted.epoch seq }
  { result := .ok seq, room := pruned.saveRuntime cfg }

/-- The text of a version, for a device that may read it. -/
def getHistoryText (deviceId userId : String) (versionId : ℕ) : Except Failure String :=
  match requireRole cfg.vaultId deviceId userId false r.data with
  | .error e => .error e
  | .ok _ =>
    match requiredLiveFile cfg.vaultId cfg.fileId r.data with
    | .error e => .error e
    | .ok _ =>
      match r.roomStore.getSnapshotVersion versionId with
      | none => fail .NOT_FOUND "History version not found"
      | some version => .ok (textFromSnapshot cfg version.snapshot)

/-- The op that writes a version of the history to the note. -/
def restoreOp (file : StoredFile) (text requestId : String) : FileOp :=
  { opId := requestId
    deviceId := "collab:" ++ cfg.fileId
    -- the request id makes a repeated request a replay
    deviceSeq := deviceSeqFromUuid requestId
    fileId := cfg.fileId
    vaultId := cfg.vaultId
    kind := .update
    type := .note
    baseContentVV := some file.contentVV
    newContentVV := some (VersionVector.bump file.contentVV ("collab:" ++ cfg.fileId))
    contentHash := some (contentHashText cfg.platform text)
    inlineText := some text
    size := some (encodeText text).length
    schemaVersion := some 1 }

/-- The part of `restoreHistoryVersion` under the lock: the document gets the text. -/
def replaceText (now : Time) (clientID : ℕ) (deviceId userId text : String) :
    Room D × List (RoomSink × RoomMessage D) :=
  let persisted := r.runtime.persisted
  let nextDoc := ⊥ ⊔ r.runtime.doc
  let nextDoc := nextDoc ⊔ cfg.crdt.change clientID textName text nextDoc
  let update := cfg.crdt.diff nextDoc r.runtime.doc
  let seq := persisted.nextSeq
  -- the lease and the vectors of the room stay as they were
  let merged : Room D :=
    { r with
      roomStore := r.roomStore.appendUpdate
        { roomEpoch := persisted.epoch, seq, deviceId, update, createdAt := now }
      runtime := { r.runtime with
        doc := r.runtime.doc ⊔ update, persisted := { persisted with nextSeq := seq + 1 } } }
  let saved :=
    (merged.captureSnapshot now seq .restore (some deviceId) (some userId)).saveRuntime cfg
  (saved, saved.broadcastRoom busy (.yjsUpdate persisted.epoch seq update none) false)

/-- What `restoreHistoryVersion` returns. -/
structure Restored where
  text : String
  vaultSeq : ℕ
  resultingClocks : ResultingClocks

/-- The text of a version goes into the note and into the room. -/
def restoreHistoryVersion (now : Time) (uuid : Uuid) (clientID : ℕ) (deviceId userId : String)
    (versionId : ℕ) (requestId : String) : Outcome D Restored :=
  match requireRole cfg.vaultId deviceId userId true r.data with
  | .error e => { result := .error e, room := r }
  | .ok _ =>
    match requiredLiveFile cfg.vaultId cfg.fileId r.data with
    | .error e => { result := .error e, room := r }
    | .ok file =>
      match r.roomStore.getSnapshotVersion versionId with
      | none => { result := fail .NOT_FOUND "History version not found", room := r }
      | some version =>
        let text := textFromSnapshot cfg version.snapshot
        let op := restoreOp cfg file text requestId
        match process cfg.platform now uuid op none r.data with
        | (.error e, data) => { result := .error (.path e), room := { r with data } }
        | (.ok (.reject answer), data) =>
          { result := fail answer.code ("History restore failed: " ++ answer.message) answer.details
            room := { r with data } }
        -- the note has the text; the room gets it in calls of their own
        | (.ok (.ack answer), data) =>
          let (room, sent) := replaceText cfg busy { r with data } now clientID deviceId userId text
          { result := .ok
              { text, vaultSeq := answer.vaultSeq, resultingClocks := answer.resultingClocks }
            room
            sent
            broadcast :=
              [{ vaultSeq := answer.vaultSeq, op, resultingClocks := answer.resultingClocks }] }

end Room

end

/-! ### Steps -/

/-- A call on the room, or on the store between two of them.  What is sent does not
depend on the events, and what they leave does not depend on the sockets. -/
inductive RoomEvent (D : Type)
  | layer1 (event : ServerEvent)
  | promote (now : Time) (clientID : ℕ) (deviceId userId : String) (connection : ℕ)
  | handleUpdate (now : Time) (deviceId userId : String) (roomEpoch updateId : ℕ) (update : D)
  | handleSync (deviceId : String) (roomEpoch : ℕ) (stateVector : D)
  | heartbeat (now : Time) (deviceId : String) (roomEpoch : ℕ)
  | leave (deviceId : String) (roomEpoch : ℕ)
  | disconnect (deviceId : String)
  | demote (now : Time) (uuid : Uuid) (deviceId : String) (roomEpoch : Option ℕ)
      (reason : RoomClosedReason)
  | closeDeleted
  | closingTimer (now : Time) (uuid : Uuid)
  | sweepExpired (now : Time) (uuid : Uuid)
  | closeAll (now : Time) (uuid : Uuid) (reason : RoomClosedReason)
  | compact (now : Time) (throughSeq : Option ℕ)
  | restoreHistoryVersion (now : Time) (uuid : Uuid) (clientID : ℕ) (deviceId userId : String)
      (versionId : ℕ) (requestId : String)
  | restart

section

variable {D : Type} [SemilatticeSup D] [OrderBot D] (cfg : RoomConfig D)

/-- No socket is behind. -/
def ready : RoomSink → Bool := fun _ => false

/-- A call that only concerns a room in memory. -/
def RoomServer.inMemory (s : RoomServer D) (call : Room D → Room D) : RoomServer D :=
  match s.runtime with
  | none => s
  | some runtime => (call { data := s.data, roomStore := s.roomStore, runtime }).server

/-- The server after an event. -/
def roomStep (s : RoomServer D) : RoomEvent D → RoomServer D
  | .layer1 event => { s with data := serverStep cfg.platform s.data event }
  | .promote now clientID deviceId userId connection =>
    (s.materialize.promote cfg now clientID deviceId userId connection).room.server
  | .handleUpdate now deviceId userId roomEpoch updateId update =>
    (s.materialize.handleUpdate cfg ready now deviceId userId roomEpoch updateId
      update).room.server
  | .handleSync deviceId roomEpoch stateVector =>
    (s.materialize.handleSync cfg deviceId roomEpoch stateVector).room.server
  | .heartbeat now deviceId roomEpoch =>
    (s.materialize.heartbeat cfg now deviceId roomEpoch).room.server
  | .leave deviceId roomEpoch => (s.materialize.leave deviceId roomEpoch).room.server
  -- a room that is not in memory has no participant and no timer
  | .disconnect deviceId => s.inMemory fun r => r.disconnect deviceId
  | .demote now uuid deviceId roomEpoch reason =>
    (s.materialize.demote cfg ready now uuid deviceId roomEpoch reason).room.server
  | .closeDeleted => (s.materialize.closeDeleted cfg ready).room.server
  | .closingTimer now uuid => s.inMemory fun r => (r.closingTimer cfg ready now uuid).room
  | .sweepExpired now uuid => s.inMemory fun r => (r.sweepExpired cfg ready now uuid).room
  | .closeAll now uuid reason => s.inMemory fun r => (r.closeAll cfg ready now uuid reason).room
  | .compact now throughSeq => (s.materialize.compact cfg now throughSeq).room.server
  | .restoreHistoryVersion now uuid clientID deviceId userId versionId requestId =>
    (s.materialize.restoreHistoryVersion cfg ready now uuid clientID deviceId userId versionId
      requestId).room.server
  | .restart => { s with runtime := none }

@[simp] theorem materialize_server (r : Room D) : r.server.materialize = r := rfl

end

end ObsidianSync
