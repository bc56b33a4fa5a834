import ObsidianSync.Server.Store

/-!
# The op processor

`process` applies one op to the store in one transaction: it answers a known op
with its recorded result, checks the device and its sequence, validates the
payload, applies the op to its file, and logs the outcome under the next vault
sequence.

The current time and the id a new conflict gets are arguments.  The functions
that write take the store and return it; a failing one returns it as well where
it wrote before it failed.

## Main definitions

* `validatePayload`, `applyCreate`, `applyUpdate`, `applyRename`,
  `applyDelete`, `applyRestore`, `uniquePath` — as the source has them.
* `process` — `OpProcessor.process`.
* `Applied` — a file an op produced, with the store after the side writes.
-/

namespace ObsidianSync

/-- What the functions of the processor throw. -/
inductive Failure
  /-- A `SyncError`, which `process` turns into a reject. -/
  | sync (error : SyncError)
  /-- A `PathValidationError`, which `process` rethrows. -/
  | path (error : PathValidationError)
  deriving DecidableEq

/-- `throw new SyncError(code, message, details)`. -/
def fail {α : Type} (code : ErrorCode) (message : String) (details : Option ErrorDetails := none) :
    Except Failure α :=
  .error (.sync { code, message, details })

/-- `Number.isSafeInteger` on a natural number. -/
def isSafeInteger (n : ℕ) : Bool := n ≤ 9007199254740991

/-- The result of applying an op: the file to save, the conflict it opened, and
the store with blob references and conflicts written. -/
structure Applied where
  file : StoredFile
  conflictId : Option String := none
  tx : Store

/-- `reject`. -/
def reject (opId : String) (code : ErrorCode) (message : String)
    (details : Option ErrorDetails := none) : OpApplyResult :=
  .reject { opId := some opId, code, message, details }

/-! ### Helpers -/

/-- The row of an op that needs one. -/
def requiredFile (file : Option StoredFile) : Except Failure StoredFile :=
  match file with
  | none => fail .NOT_FOUND "File not found"
  | some file => .ok file

/-- The clock of an op that needs one. -/
def requiredPathClock (clock : Option PathClock) : Except Failure PathClock :=
  match clock with
  | none => fail .BAD_REQUEST "Invalid path clock"
  | some clock =>
    if !isSafeInteger clock.lamport || clock.deviceId = "" then
      fail .BAD_REQUEST "Invalid path clock"
    else .ok clock

/-- The clocks of a row, as an answer tells them. -/
def clocks (file : StoredFile) : ResultingClocks :=
  { contentVV := some file.contentVV, pathClock := some file.pathClock,
    deleteVV := file.deleteVV, epoch := file.epoch }

/-- `normalizePath`, with its error as a failure of the processor. -/
def normalized (P : Platform) (raw : String) : Except Failure String :=
  (normalizePath P raw).mapError .path

/-- The loop of `uniquePath`: `candidate` is tried in round `n`, and `fuel`
rounds remain. -/
def uniquePathFrom (P : Platform) (tx : Store) (vaultId desired fileId : String) :
    ℕ → ℕ → String → Except Failure String
  | 0, _, _ => fail .ILLEGAL_PATH "Unable to allocate a collision-free path"
  | fuel + 1, n, candidate =>
    match tx.findLiveFileByPath vaultId (P.toLowerCase candidate) with
    | none => .ok candidate
    | some collision =>
      -- the file may keep a path it has
      if collision.fileId = fileId then .ok candidate
      else uniquePathFrom P tx vaultId desired fileId fuel (n + 1) (suffixPath desired n)

/-- The first of `desired`, `desired (2)`, … that no other live file has. -/
def uniquePath (P : Platform) (tx : Store) (vaultId desired fileId : String) :
    Except Failure String :=
  -- n runs from 2 to 9999
  uniquePathFrom P tx vaultId desired fileId 9998 2 desired

/-- Move the `file_live` reference from the old blob of a file to its new one. -/
def updateBlobRefs (tx : Store) (oldFile : Option StoredFile) (newFile : StoredFile) : Store :=
  let tx :=
    match oldFile with
    | none => tx
    | some old =>
      if truthy old.blobRef && old.blobRef ≠ newFile.blobRef then
        tx.removeBlobRef (old.blobRef.getD "") .fileLive old.fileId
      else tx
  if truthy newFile.blobRef then
    tx.addBlobRef
      { hash := newFile.blobRef.getD "", refType := .fileLive, refId := newFile.fileId }
  else tx

/-- Keep the blobs of both sides of a conflict. -/
def addConflictRefs (tx : Store) (conflictId : String) (ours theirs : Option String) : Store :=
  let tx :=
    if truthy ours then
      tx.addBlobRef
        { hash := ours.getD "", refType := .conflictSide, refId := conflictId ++ ":ours" }
    else tx
  if truthy theirs then
    tx.addBlobRef
      { hash := theirs.getD "", refType := .conflictSide, refId := conflictId ++ ":theirs" }
  else tx

/-- The row a create makes. -/
def newStoredFile (P : Platform) (now : Time) (op : FileOp) (path : String)
    (pathClock : PathClock) : StoredFile :=
  { fileId := op.fileId
    vaultId := op.vaultId
    type := op.type
    path
    pathNormalized := caseFoldPath P path
    pathClock
    contentVV := op.newContentVV.getD VersionVector.emptyVV
    contentHash := op.contentHash.or op.blobRef
    size := op.size
    blobRef := op.blobRef
    contentEncoding := op.contentEncoding
    deleteVV := none
    deleted := false
    deletedAt := none
    epoch := 0
    conflictId := none
    activeUntil := none
    updatedAt := now }

/-! ### Validation -/

/-- The blob an op refers to is verified and has the declared size. -/
def checkBlob (op : FileOp) (tx : Store) : Except Failure Unit :=
  if truthy op.blobRef then
    match tx.getBlob (op.blobRef.getD "") with
    | none => fail .BLOB_MISSING "Referenced blob is not verified"
    | some blob =>
      if blob.state ≠ .verified ∨ some blob.size ≠ op.size then
        fail .BLOB_MISSING "Referenced blob is not verified"
      else .ok ()
  else .ok ()

/-- The checks on the content of an op that declares a hash, and the write of its
inline text. -/
def validateContent (P : Platform) (op : FileOp) (contentHash : String) (tx : Store) :
    Except Failure Unit × Store :=
  if !isValidContentHash contentHash then (fail .BAD_REQUEST "Invalid content hash", tx)
  else if op.contentEncoding.isSome && op.inlineText.isSome then
    (fail .BAD_REQUEST "Encrypted content must be uploaded as an opaque blob", tx)
  -- the content is looked up in the whole store, not in the vault
  else if op.contentEncoding.isSome && !truthy op.blobRef && (tx.getContent contentHash).isNone then
    (fail .BAD_REQUEST "Encrypted content requires an uploaded blob", tx)
  else
    match op.inlineText with
    | none => (checkBlob op tx, tx)
    | some inlineText =>
      if contentHashText P inlineText ≠ contentHash then
        (fail .BLOB_HASH_MISMATCH "Inline content hash mismatch", tx)
      else
        -- stored before the blob is looked at, so a reject leaves it behind
        let tx := tx.putContent contentHash (encodeText inlineText)
        (checkBlob op tx, tx)

/-- The checks of an op before its row is looked at; inline text is stored on the way. -/
def validatePayload (P : Platform) (op : FileOp) (tx : Store) : Except Failure Unit × Store :=
  if op.opId = "" || op.deviceId = "" || op.vaultId = "" || op.fileId = "" ||
      !isSafeInteger op.deviceSeq || op.deviceSeq < 1 then
    (fail .BAD_REQUEST "Invalid op identity or sequence", tx)
  else if (op.kind = .create || op.kind = .rename) && !truthy op.newPath then
    (fail .ILLEGAL_PATH "newPath is required", tx)
  else
    match (if truthy op.newPath then normalized P (op.newPath.getD "") else .ok "") with
    | .error e => (.error e, tx)
    | .ok _ =>
      -- a `blobRef` is looked at only beside a `contentHash`
      if op.kind.isContent && truthy op.contentHash then
        validateContent P op (op.contentHash.getD "") tx
      else (.ok (), tx)

/-! ### The five kinds -/

/-- An update moves its row on, opens a conflict, or is stale. -/
def applyUpdate (now : Time) (uuid : Uuid) (op : FileOp) (file : StoredFile) (tx : Store) :
    Except Failure Applied :=
  let newVV := op.newContentVV.getD VersionVector.emptyVV
  if !VersionVector.dominates newVV file.contentVV then
    -- the vectors say that neither side has seen the other
    if VersionVector.isConcurrent newVV file.contentVV then
      let (conflict, tx) := tx.createConflict uuid op.vaultId op.fileId
        (if op.type = .attachment then .attachment else .content)
        op.contentHash file.contentHash (op.contentHash.or op.blobRef)
        (some file.contentVV) (some newVV)
      let conflicted := { file with conflictId := some conflict.conflictId, updatedAt := now }
      let tx := addConflictRefs tx conflict.conflictId file.blobRef op.blobRef
      .ok { file := conflicted, conflictId := some conflict.conflictId, tx }
    else fail .STALE "Content version does not dominate stored version"
  else
    let updated := { file with
      contentVV := newVV
      contentHash := (op.contentHash.or op.blobRef).or file.contentHash
      size := op.size.or file.size
      blobRef := op.blobRef
      contentEncoding := op.contentEncoding
      -- an update of a tombstone brings the file back; `deleteVV` stays
      deleted := false
      deletedAt := none
      conflictId := none
      updatedAt := now }
    .ok { file := updated, tx := updateBlobRefs tx (some file) updated }

/-- A create makes a row, over a deleted one as well, and is an update of a live one. -/
def applyCreate (P : Platform) (now : Time) (uuid : Uuid) (op : FileOp)
    (existing : Option StoredFile) (tx : Store) : Except Failure Applied :=
  let create : Except Failure Applied :=
    match normalized P (op.newPath.getD op.fileId) with
    | .error e => .error e
    | .ok desired =>
      match uniquePath P tx op.vaultId desired op.fileId with
      | .error e => .error e
      | .ok path =>
        let pathClock := op.pathClock.getD { lamport := 1, deviceId := op.deviceId }
        let file := newStoredFile P now op path pathClock
        .ok { file, tx := updateBlobRefs tx none file }
  match existing with
  | none => create
  -- a tombstone is replaced, its clocks and vector included
  | some file => if !file.deleted then applyUpdate now uuid op file tx else create

/-- A rename whose clock wins moves the file, and another one does nothing. -/
def applyRename (P : Platform) (now : Time) (op : FileOp) (file : StoredFile) (tx : Store) :
    Except Failure Applied :=
  match requiredPathClock op.pathClock with
  | .error e => .error e
  | .ok incoming =>
    -- the losing rename is logged and acknowledged all the same
    if !pathClockWins incoming file.pathClock then .ok { file, tx }
    else
      match normalized P (op.newPath.getD file.path) with
      | .error e => .error e
      | .ok desired =>
        match uniquePath P tx op.vaultId desired op.fileId with
        | .error e => .error e
        | .ok path =>
          .ok
            { file := { file with
                path
                pathNormalized := P.toLowerCase path
                pathClock := incoming
                updatedAt := now }
              tx }

/-- A delete leaves the row as a tombstone. -/
def applyDelete (now : Time) (op : FileOp) (file : StoredFile) : StoredFile :=
  -- no vectors are compared: a delete takes away content it has not seen
  let deleteVV := (op.newContentVV.or op.baseContentVV).getD file.contentVV
  { file with
    deleteVV := some deleteVV, deleted := true, deletedAt := some now, updatedAt := now }

/-- A restore makes the file live again, at the path it asks for or had. -/
def applyRestore (P : Platform) (now : Time) (op : FileOp) (file : StoredFile) (tx : Store) :
    Except Failure Applied :=
  let restoredVV := VersionVector.join (file.deleteVV.getD VersionVector.emptyVV)
    (op.newContentVV.getD file.contentVV)
  match normalized P (op.newPath.getD file.path) with
  | .error e => .error e
  | .ok desired =>
    match uniquePath P tx op.vaultId desired op.fileId with
    | .error e => .error e
    | .ok path =>
      -- unlike an update, a restore clears the tombstone whole and begins an epoch
      let restored := { file with
        path
        pathNormalized := P.toLowerCase path
        contentVV := restoredVV
        contentHash := op.contentHash.or file.contentHash
        size := op.size.or file.size
        blobRef := op.blobRef.or file.blobRef
        contentEncoding := op.contentEncoding.or file.contentEncoding
        deleteVV := none
        deleted := false
        deletedAt := none
        epoch := file.epoch + 1
        conflictId := none
        updatedAt := now }
      .ok { file := restored, tx := updateBlobRefs tx (some file) restored }

/-! ### Processing -/

/-- Ops the server makes on behalf of a room. -/
def syntheticCollab (op : FileOp) : Bool := op.deviceId = "collab:" ++ op.fileId

/-- The device of an op, absent for the ops the server makes. -/
def opDevice (op : FileOp) (s : Store) : Option StoredDevice :=
  if syntheticCollab op then none else s.getDevice op.deviceId

/-- The checks on the device, its owner's role and its sequence: the answer, if
they already give one. -/
def checkDevice (op : FileOp) (userId : Option String) (s : Store) : Option OpApplyResult :=
  if syntheticCollab op then none
  else
    match s.getDevice op.deviceId with
    | none => some (reject op.opId .UNAUTHENTICATED "Unknown device for vault")
    | some device =>
      if device.vaultId ≠ op.vaultId then
        some (reject op.opId .UNAUTHENTICATED "Unknown device for vault")
      else if device.revoked then some (reject op.opId .DEVICE_REVOKED "Device is revoked")
      -- without a user the role is not asked for
      else if truthy userId &&
          !((s.getRole op.vaultId (userId.getD "")).elim false Role.canWrite) then
        some (reject op.opId .FORBIDDEN "Write permission required")
      else
        let expected := device.lastDeviceSeq + 1
        if op.deviceSeq < expected then
          match s.getOpByDeviceSeq op.deviceId op.deviceSeq with
          -- another op of the same number gets the answer of the first one
          | some prior => some prior.result
          | none =>
            some (reject op.opId .STALE "Device sequence already processed"
              (some (.expected expected)))
        else if op.deviceSeq > expected then
          some (reject op.opId .SEQ_GAP "Device sequence gap" (some (.expected expected)))
        else none

/-- Whether content ops on the file are refused: a room is active on it. -/
def isActive (now : Time) (file : StoredFile) : Bool :=
  match file.activeUntil with
  | none => false
  -- the lease alone counts, not whether the room is stored as active
  | some activeUntil => activeUntil > now

/-- The guards of a content op and the dispatch on its kind. -/
def applyOp (P : Platform) (now : Time) (uuid : Uuid) (op : FileOp) (file : Option StoredFile)
    (tx : Store) : Except Failure Applied :=
  if !syntheticCollab op && file.any (isActive now) && op.kind.isContent then
    fail .FILE_ACTIVE "File is active in Layer 2" (some (.hint "promote"))
  -- a rename or a delete goes through while a conflict is open
  else if truthy (file.bind StoredFile.conflictId) && op.kind.isContent then
    fail .CONFLICT_PENDING "Content operations are frozen until conflict resolution"
  else
    match op.kind with
    | .create => applyCreate P now uuid op file tx
    | .update =>
      match requiredFile file with
      | .error e => .error e
      | .ok file => applyUpdate now uuid op file tx
    | .rename =>
      match requiredFile file with
      | .error e => .error e
      | .ok file => applyRename P now op file tx
    | .delete =>
      match requiredFile file with
      | .error e => .error e
      | .ok file => .ok { file := applyDelete now op file, tx }
    | .restore =>
      match requiredFile file with
      | .error e => .error e
      | .ok file => applyRestore P now op file tx

/-- The ack of an applied op under the sequence `seq`. -/
def ackOf (op : FileOp) (seq : ℕ) (applied : Applied) : OpAckResult :=
  { opId := op.opId, vaultSeq := seq, resultingClocks := clocks applied.file,
    conflictId := applied.conflictId }

/-- Take a sequence, save the file, log the op, queue it for publication and move
the device forward. -/
def commit (now : Time) (op : FileOp) (device : Option StoredDevice) (applied : Applied) :
    OpAckResult × Store :=
  let (seq, tx) := applied.tx.nextVaultSeq op.vaultId
  let result := ackOf op seq applied
  let tx := tx.saveFile applied.file
  let tx := tx.appendOp
    { vaultId := op.vaultId, seq, opId := op.opId, deviceId := op.deviceId,
      deviceSeq := op.deviceSeq, fileId := op.fileId, kind := op.kind, payload := op,
      result := .ack result, createdAt := now }
  let tx := tx.appendOutbox op.vaultId seq
    { vaultSeq := seq, op, resultingClocks := clocks applied.file }
  -- the server has no device row, and no sequence to move
  match device with
  | none => (result, tx)
  | some device =>
    (result, tx.saveDevice { device with
      lastDeviceSeq := op.deviceSeq, lastSeq := seq, lastSeen := some now })

/-- What a failure becomes: a `SyncError` is answered, anything else is thrown. -/
def answerFailure (op : FileOp) : Failure → Except PathValidationError OpApplyResult
  | .sync error => .ok (reject op.opId error.code error.message error.details)
  | .path error => .error error

/-- `OpProcessor.process`. -/
def process (P : Platform) (now : Time) (uuid : Uuid) (op : FileOp) (userId : Option String)
    (s : Store) : Except PathValidationError OpApplyResult × Store :=
  match s.getOpById op.opId with
  -- a replay is answered from the log, before any check
  | some existing => (.ok existing.result, s)
  | none =>
    match checkDevice op userId s with
    | some answer => (.ok answer, s)
    | none =>
      match validatePayload P op s with
      -- a reject ends the transaction as a commit does: what was written stays
      | (.error e, tx) => (answerFailure op e, tx)
      | (.ok _, tx) =>
        match applyOp P now uuid op (tx.getFile op.vaultId op.fileId) tx with
        | .error e => (answerFailure op e, tx)
        | .ok applied =>
          let (result, tx) := commit now op (opDevice op s) applied
          (.ok (.ack result), tx)

end ObsidianSync
