import ObsidianSync.Server.OpProcessor

/-!
# The op processor over a data store

The source's op processor reaches its store through an interface and does not
know which store it has.  Here is the processor over that interface, in any
monad, and the in-memory store as one instance of it: over that instance it is
the `process` of the rest of the development, so what is said of another
instance can be compared with it.

## Main definitions

* `OpDataStore` — the calls of the interface the op processor makes.
* `OpDataStore.process` — `OpProcessor.process` over it.
* `inMemory` — the in-memory data store.

## Main results

* `process_inMemory` — over the in-memory store it is `process`.
-/

namespace ObsidianSync

/-- The data store, as the op processor sees it. -/
structure OpDataStore (m : Type → Type) where
  getDevice : String → m (Option StoredDevice)
  saveDevice : StoredDevice → m Unit
  getRole : String → String → m (Option Role)
  getOpById : String → m (Option StoredOp)
  getOpByDeviceSeq : String → ℕ → m (Option StoredOp)
  getFile : String → String → m (Option StoredFile)
  saveFile : StoredFile → m Unit
  findLiveFileByPath : String → String → m (Option StoredFile)
  nextVaultSeq : String → m ℕ
  appendOp : StoredOp → m Unit
  appendOutbox : String → ℕ → AppliedOp → m Unit
  getBlob : String → m (Option BlobRecord)
  addBlobRef : BlobRef → m Unit
  removeBlobRef : String → BlobRefType → String → m Unit
  createConflict (vaultId fileId : String) (kind : ConflictKind)
    (baseHash oursHash theirsHash : Option String) (oursVV theirsVV : Option VersionVector) :
    m ConflictRecord
  getContent : String → m (Option Bytes)
  putContent : String → Bytes → m Unit

namespace OpDataStore

variable {m : Type → Type} [Monad m] (tx : OpDataStore m)

/-! ### Helpers -/

/-- The loop of `uniquePath` from the `n`th suffix on. -/
def uniquePathFrom (P : Platform) (vaultId desired fileId : String) :
    ℕ → ℕ → String → m (Except Failure String)
  | 0, _, _ => pure (fail .ILLEGAL_PATH "Unable to allocate a collision-free path")
  | fuel + 1, n, candidate => do
    match ← tx.findLiveFileByPath vaultId (P.toLowerCase candidate) with
    | none => pure (.ok candidate)
    | some collision =>
      if collision.fileId = fileId then pure (.ok candidate)
      else uniquePathFrom P vaultId desired fileId fuel (n + 1) (suffixPath desired n)

/-- The first suffixed path that no other live file has. -/
def uniquePath (P : Platform) (vaultId desired fileId : String) : m (Except Failure String) :=
  tx.uniquePathFrom P vaultId desired fileId 9998 2 desired

/-- The reference of a row moves from its old blob to its new one. -/
def updateBlobRefs (oldFile : Option StoredFile) (newFile : StoredFile) : m Unit := do
  match oldFile with
  | none => pure ()
  | some old =>
    if truthy old.blobRef && old.blobRef ≠ newFile.blobRef then
      tx.removeBlobRef (old.blobRef.getD "") .fileLive old.fileId
    else pure ()
  if truthy newFile.blobRef then
    tx.addBlobRef
      { hash := newFile.blobRef.getD "", refType := .fileLive, refId := newFile.fileId }
  else pure ()

/-- The references of the two sides of a conflict. -/
def addConflictRefs (conflictId : String) (ours theirs : Option String) : m Unit := do
  if truthy ours then
    tx.addBlobRef
      { hash := ours.getD "", refType := .conflictSide, refId := conflictId ++ ":ours" }
  else pure ()
  if truthy theirs then
    tx.addBlobRef
      { hash := theirs.getD "", refType := .conflictSide, refId := conflictId ++ ":theirs" }
  else pure ()

/-! ### Validation -/

/-- The blob an op refers to is verified and has the size that the op says. -/
def checkBlob (op : FileOp) : m (Except Failure Unit) :=
  if truthy op.blobRef then do
    match ← tx.getBlob (op.blobRef.getD "") with
    | none => pure (fail .BLOB_MISSING "Referenced blob is not verified")
    | some blob =>
      if blob.state ≠ .verified ∨ some blob.size ≠ op.size then
        pure (fail .BLOB_MISSING "Referenced blob is not verified")
      else pure (.ok ())
  else pure (.ok ())

/-- Whether encrypted content without a blob is not stored either. -/
def encryptedMissing (op : FileOp) (contentHash : String) : m Bool :=
  if op.contentEncoding.isSome && !truthy op.blobRef then do
    pure (← tx.getContent contentHash).isNone
  else pure false

/-- The checks of a content op that names its hash. -/
def validateContent (P : Platform) (op : FileOp) (contentHash : String) :
    m (Except Failure Unit) :=
  if !isValidContentHash contentHash then pure (fail .BAD_REQUEST "Invalid content hash")
  else if op.contentEncoding.isSome && op.inlineText.isSome then
    pure (fail .BAD_REQUEST "Encrypted content must be uploaded as an opaque blob")
  else do
    if ← tx.encryptedMissing op contentHash then
      pure (fail .BAD_REQUEST "Encrypted content requires an uploaded blob")
    else
      match op.inlineText with
      | none => tx.checkBlob op
      | some inlineText =>
        if contentHashText P inlineText ≠ contentHash then
          pure (fail .BLOB_HASH_MISMATCH "Inline content hash mismatch")
        else do
          tx.putContent contentHash (encodeText inlineText)
          tx.checkBlob op

/-- The checks of an op before its row is looked at. -/
def validatePayload (P : Platform) (op : FileOp) : m (Except Failure Unit) :=
  if op.opId = "" || op.deviceId = "" || op.vaultId = "" || op.fileId = "" ||
      !isSafeInteger op.deviceSeq || op.deviceSeq < 1 then
    pure (fail .BAD_REQUEST "Invalid op identity or sequence")
  else if (op.kind = .create || op.kind = .rename) && !truthy op.newPath then
    pure (fail .ILLEGAL_PATH "newPath is required")
  else
    match (if truthy op.newPath then normalized P (op.newPath.getD "") else .ok "") with
    | .error e => pure (.error e)
    | .ok _ =>
      if op.kind.isContent && truthy op.contentHash then
        tx.validateContent P op (op.contentHash.getD "")
      else pure (.ok ())

/-! ### The five kinds -/

/-- What the appliers return: the file to save and the conflict they opened. -/
abbrev Outcome := Except Failure (StoredFile × Option String)

/-- An update moves its row on, opens a conflict, or is stale. -/
def applyUpdate (now : Time) (op : FileOp) (file : StoredFile) : m Outcome :=
  let newVV := op.newContentVV.getD VersionVector.emptyVV
  if !VersionVector.dominates newVV file.contentVV then
    if VersionVector.isConcurrent newVV file.contentVV then do
      let conflict ← tx.createConflict op.vaultId op.fileId
        (if op.type = .attachment then .attachment else .content)
        op.contentHash file.contentHash (op.contentHash.or op.blobRef)
        (some file.contentVV) (some newVV)
      let conflicted := { file with conflictId := some conflict.conflictId, updatedAt := now }
      tx.addConflictRefs conflict.conflictId file.blobRef op.blobRef
      pure (.ok (conflicted, some conflict.conflictId))
    else pure (fail .STALE "Content version does not dominate stored version")
  else do
    let updated := { file with
      contentVV := newVV
      contentHash := (op.contentHash.or op.blobRef).or file.contentHash
      size := op.size.or file.size
      blobRef := op.blobRef
      contentEncoding := op.contentEncoding
      deleted := false
      deletedAt := none
      conflictId := none
      updatedAt := now }
    tx.updateBlobRefs (some file) updated
    pure (.ok (updated, none))

/-- The create proper, where no live file has the id. -/
def createNew (P : Platform) (now : Time) (op : FileOp) : m Outcome :=
  match normalized P (op.newPath.getD op.fileId) with
  | .error e => pure (.error e)
  | .ok desired => do
    match ← tx.uniquePath P op.vaultId desired op.fileId with
    | .error e => pure (.error e)
    | .ok path =>
      let pathClock := op.pathClock.getD { lamport := 1, deviceId := op.deviceId }
      let file := newStoredFile P now op path pathClock
      tx.updateBlobRefs none file
      pure (.ok (file, none))

/-- A create makes a row, over a deleted one as well, and is an update of a live one. -/
def applyCreate (P : Platform) (now : Time) (op : FileOp) (existing : Option StoredFile) :
    m Outcome :=
  match existing with
  | none => tx.createNew P now op
  | some file => if !file.deleted then tx.applyUpdate now op file else tx.createNew P now op

/-- A rename whose clock wins moves the file, and another one does nothing. -/
def applyRename (P : Platform) (now : Time) (op : FileOp) (file : StoredFile) : m Outcome :=
  match requiredPathClock op.pathClock with
  | .error e => pure (.error e)
  | .ok incoming =>
    if !pathClockWins incoming file.pathClock then pure (.ok (file, none))
    else
      match normalized P (op.newPath.getD file.path) with
      | .error e => pure (.error e)
      | .ok desired => do
        match ← tx.uniquePath P op.vaultId desired op.fileId with
        | .error e => pure (.error e)
        | .ok path =>
          pure (.ok ({ file with
            path
            pathNormalized := P.toLowerCase path
            pathClock := incoming
            updatedAt := now }, none))

/-- A restore makes the file live again, at the path it asks for or had. -/
def applyRestore (P : Platform) (now : Time) (op : FileOp) (file : StoredFile) : m Outcome :=
  let restoredVV := VersionVector.join (file.deleteVV.getD VersionVector.emptyVV)
    (op.newContentVV.getD file.contentVV)
  match normalized P (op.newPath.getD file.path) with
  | .error e => pure (.error e)
  | .ok desired => do
    match ← tx.uniquePath P op.vaultId desired op.fileId with
    | .error e => pure (.error e)
    | .ok path =>
      let restored := { file with
        path
        pathNormalized := P.toLowerCase path
        contentVV := restoredVV
        contentHash := op.contentHash.or file.contentHash
        size := op.size.or file.size
        blobRef := op.blobRef.or file.blobRef
        contentEncoding := op.contentEncoding.or file.contentEncoding
        deleteVV := none
        deleted := false
        deletedAt := none
        epoch := file.epoch + 1
        conflictId := none
        updatedAt := now }
      tx.updateBlobRefs (some file) restored
      pure (.ok (restored, none))

/-! ### Processing -/

/-- Whether the user, if one is named, may write to the vault. -/
def mayWrite (vaultId : String) (userId : Option String) : m Bool :=
  if truthy userId then do
    pure ((← tx.getRole vaultId (userId.getD "")).elim false Role.canWrite)
  else pure true

/-- The checks on the device: the answer they give, or the device. -/
def checkDevice (op : FileOp) (userId : Option String) :
    m (Except OpApplyResult (Option StoredDevice)) :=
  if syntheticCollab op then pure (.ok none)
  else do
    match ← tx.getDevice op.deviceId with
    | none => pure (.error (reject op.opId .UNAUTHENTICATED "Unknown device for vault"))
    | some device =>
      if device.vaultId ≠ op.vaultId then
        pure (.error (reject op.opId .UNAUTHENTICATED "Unknown device for vault"))
      else if device.revoked then
        pure (.error (reject op.opId .DEVICE_REVOKED "Device is revoked"))
      else do
        if !(← tx.mayWrite op.vaultId userId) then
          pure (.error (reject op.opId .FORBIDDEN "Write permission required"))
        else
          let expected := device.lastDeviceSeq + 1
          if op.deviceSeq < expected then do
            match ← tx.getOpByDeviceSeq op.deviceId op.deviceSeq with
            | some prior => pure (.error prior.result)
            | none =>
              pure (.error (reject op.opId .STALE "Device sequence already processed"
                (some (.expected expected))))
          else if op.deviceSeq > expected then
            pure (.error (reject op.opId .SEQ_GAP "Device sequence gap"
              (some (.expected expected))))
          else pure (.ok (some device))

/-- The guards of a content op, and then its kind. -/
def applyOp (P : Platform) (now : Time) (op : FileOp) (file : Option StoredFile) : m Outcome :=
  if !syntheticCollab op && file.any (isActive now) && op.kind.isContent then
    pure (fail .FILE_ACTIVE "File is active in Layer 2" (some (.hint "promote")))
  else if truthy (file.bind StoredFile.conflictId) && op.kind.isContent then
    pure (fail .CONFLICT_PENDING "Content operations are frozen until conflict resolution")
  else
    match op.kind with
    | .create => tx.applyCreate P now op file
    | .update =>
      match requiredFile file with
      | .error e => pure (.error e)
      | .ok file => tx.applyUpdate now op file
    | .rename =>
      match requiredFile file with
      | .error e => pure (.error e)
      | .ok file => tx.applyRename P now op file
    | .delete =>
      match requiredFile file with
      | .error e => pure (.error e)
      | .ok file => pure (.ok (applyDelete now op file, none))
    | .restore =>
      match requiredFile file with
      | .error e => pure (.error e)
      | .ok file => tx.applyRestore P now op file

/-- The row, the references, the log entry, the outbox row and the device of an applied op. -/
def commit (now : Time) (op : FileOp) (device : Option StoredDevice) (file : StoredFile)
    (conflictId : Option String) : m OpAckResult := do
  let seq ← tx.nextVaultSeq op.vaultId
  let result : OpAckResult :=
    { opId := op.opId, vaultSeq := seq, resultingClocks := clocks file, conflictId }
  tx.saveFile file
  tx.appendOp
    { vaultId := op.vaultId, seq, opId := op.opId, deviceId := op.deviceId,
      deviceSeq := op.deviceSeq, fileId := op.fileId, kind := op.kind, payload := op,
      result := .ack result, createdAt := now }
  tx.appendOutbox op.vaultId seq { vaultSeq := seq, op, resultingClocks := clocks file }
  match device with
  | none => pure ()
  | some device =>
    tx.saveDevice { device with
      lastDeviceSeq := op.deviceSeq, lastSeq := seq, lastSeen := some now }
  pure result

/-- One op: answered from the log, refused, or applied and committed. -/
def process (P : Platform) (now : Time) (op : FileOp) (userId : Option String) :
    m (Except PathValidationError OpApplyResult) := do
  match ← tx.getOpById op.opId with
  | some existing => pure (.ok existing.result)
  | none =>
    match ← tx.checkDevice op userId with
    | .error answer => pure (.ok answer)
    | .ok device =>
      match ← tx.validatePayload P op with
      | .error e => pure (answerFailure op e)
      | .ok _ =>
        match ← tx.applyOp P now op (← tx.getFile op.vaultId op.fileId) with
        | .error e => pure (answerFailure op e)
        | .ok (file, conflictId) =>
          let result ← tx.commit now op device file conflictId
          pure (.ok (.ack result))

end OpDataStore

/-! ### The in-memory store -/

/-- `InMemoryDataStore`; `uuid` is what `randomUUID()` returns. -/
def inMemory (uuid : Uuid) : OpDataStore (StateM Store) where
  getDevice deviceId s := (s.getDevice deviceId, s)
  saveDevice device s := ((), s.saveDevice device)
  getRole vaultId userId s := (s.getRole vaultId userId, s)
  getOpById opId s := (s.getOpById opId, s)
  getOpByDeviceSeq deviceId deviceSeq s := (s.getOpByDeviceSeq deviceId deviceSeq, s)
  getFile vaultId fileId s := (s.getFile vaultId fileId, s)
  saveFile file s := ((), s.saveFile file)
  findLiveFileByPath vaultId pathNormalized s := (s.findLiveFileByPath vaultId pathNormalized, s)
  nextVaultSeq vaultId s := s.nextVaultSeq vaultId
  appendOp op s := ((), s.appendOp op)
  appendOutbox vaultId vaultSeq payload s := ((), s.appendOutbox vaultId vaultSeq payload)
  getBlob hash s := (s.getBlob hash, s)
  addBlobRef ref s := ((), s.addBlobRef ref)
  removeBlobRef hash refType refId s := ((), s.removeBlobRef hash refType refId)
  createConflict vaultId fileId kind baseHash oursHash theirsHash oursVV theirsVV s :=
    s.createConflict uuid vaultId fileId kind baseHash oursHash theirsHash oursVV theirsVV
  getContent hash s := (s.getContent hash, s)
  putContent hash bytes s := ((), s.putContent hash bytes)

section

variable (P : Platform) (now : Time) (uuid : Uuid) (op : FileOp) (s : Store)

/-- What the appliers give over the in-memory store, as `Applied` has it. -/
def outcome (s : Store) : Except Failure Applied → OpDataStore.Outcome × Store
  | .error e => (.error e, s)
  | .ok applied => (.ok (applied.file, applied.conflictId), applied.tx)

theorem bind_inMemory {α β : Type} (x : StateM Store α) (f : α → StateM Store β) (s : Store) :
    (x >>= f) s = f (x s).1 (x s).2 := rfl

theorem uniquePathFrom_inMemory (vaultId desired fileId : String) (fuel n : ℕ)
    (candidate : String) :
    (inMemory uuid).uniquePathFrom P vaultId desired fileId fuel n candidate s
      = (uniquePathFrom P s vaultId desired fileId fuel n candidate, s) := by
  induction fuel generalizing n candidate with
  | zero => rfl
  | succ fuel ih =>
    show (match s.findLiveFileByPath vaultId (P.toLowerCase candidate) with
      | none => _
      | some collision => _ : StateM Store (Except Failure String)) s = _
    rw [uniquePathFrom]
    cases s.findLiveFileByPath vaultId (P.toLowerCase candidate) with
    | none => rfl
    | some collision =>
      by_cases hid : collision.fileId = fileId
      · simp only [hid, if_true]
        rfl
      · simp only [hid, if_false]
        exact ih (n + 1) (suffixPath desired n)

theorem uniquePath_inMemory (vaultId desired fileId : String) :
    (inMemory uuid).uniquePath P vaultId desired fileId s
      = (uniquePath P s vaultId desired fileId, s) :=
  uniquePathFrom_inMemory P uuid s vaultId desired fileId 9998 2 desired

theorem updateBlobRefs_inMemory (oldFile : Option StoredFile) (newFile : StoredFile) :
    (inMemory uuid).updateBlobRefs oldFile newFile s = ((), updateBlobRefs s oldFile newFile) := by
  unfold OpDataStore.updateBlobRefs updateBlobRefs
  cases oldFile with
  | none => by_cases hnew : truthy newFile.blobRef = true <;> simp only [hnew] <;> rfl
  | some old =>
    by_cases hold : (truthy old.blobRef && decide (old.blobRef ≠ newFile.blobRef)) = true <;>
      by_cases hnew : truthy newFile.blobRef = true <;> simp only [hold, hnew] <;> rfl

theorem addConflictRefs_inMemory (conflictId : String) (ours theirs : Option String) :
    (inMemory uuid).addConflictRefs conflictId ours theirs s
      = ((), addConflictRefs s conflictId ours theirs) := by
  unfold OpDataStore.addConflictRefs addConflictRefs
  by_cases hours : truthy ours = true <;> by_cases htheirs : truthy theirs = true <;>
    simp only [hours, htheirs] <;> rfl

theorem checkBlob_inMemory : (inMemory uuid).checkBlob op s = (checkBlob op s, s) := by
  unfold OpDataStore.checkBlob checkBlob
  by_cases href : truthy op.blobRef = true
  · simp only [href, if_true]
    show (match s.getBlob (op.blobRef.getD "") with
      | none => _
      | some blob => _ : StateM Store (Except Failure Unit)) s = _
    cases s.getBlob (op.blobRef.getD "") with
    | none => rfl
    | some blob => by_cases hblob : blob.state ≠ .verified ∨ some blob.size ≠ op.size <;>
        simp only [hblob] <;> rfl
  · simp only [href]
    rfl

theorem encryptedMissing_inMemory (contentHash : String) :
    (inMemory uuid).encryptedMissing op contentHash s
      = (op.contentEncoding.isSome && !truthy op.blobRef && (s.getContent contentHash).isNone,
        s) := by
  unfold OpDataStore.encryptedMissing
  by_cases h : (op.contentEncoding.isSome && !truthy op.blobRef) = true
  · simp only [h, if_true, Bool.true_and]
    rfl
  · simp only [h, Bool.false_and]
    rfl

theorem validateContent_inMemory (contentHash : String) :
    (inMemory uuid).validateContent P op contentHash s = validateContent P op contentHash s := by
  unfold OpDataStore.validateContent validateContent
  by_cases hvalid : (!isValidContentHash contentHash) = true
  · simp only [if_pos hvalid]
    rfl
  · by_cases hboth : (op.contentEncoding.isSome && op.inlineText.isSome) = true
    · simp only [if_neg hvalid, if_pos hboth]
      rfl
    · simp only [if_neg hvalid, if_neg hboth, bind_inMemory, encryptedMissing_inMemory]
      by_cases hmissing : (op.contentEncoding.isSome && !truthy op.blobRef &&
          (s.getContent contentHash).isNone) = true
      · simp only [if_pos hmissing]
        rfl
      · simp only [if_neg hmissing]
        cases op.inlineText with
        | none => exact checkBlob_inMemory uuid op s
        | some inlineText =>
          by_cases hhash : contentHashText P inlineText ≠ contentHash
          · simp only [if_pos hhash]
            rfl
          · simp only [if_neg hhash]
            exact checkBlob_inMemory uuid op (s.putContent contentHash (encodeText inlineText))

theorem validatePayload_inMemory :
    (inMemory uuid).validatePayload P op s = validatePayload P op s := by
  unfold OpDataStore.validatePayload validatePayload
  split
  · rfl
  · split
    · rfl
    · cases (if truthy op.newPath then normalized P (op.newPath.getD "") else .ok "") with
      | error e => rfl
      | ok _ =>
        show (if _ then _ else _ : StateM Store (Except Failure Unit)) s = ite _ _ _
        split
        · exact validateContent_inMemory P uuid op s (op.contentHash.getD "")
        · rfl

theorem applyUpdate_inMemory (file : StoredFile) :
    (inMemory uuid).applyUpdate now op file s = outcome s (applyUpdate now uuid op file s) := by
  unfold OpDataStore.applyUpdate applyUpdate
  by_cases hdominates : (!VersionVector.dominates (op.newContentVV.getD VersionVector.emptyVV)
      file.contentVV) = true
  · by_cases hconcurrent : VersionVector.isConcurrent
        (op.newContentVV.getD VersionVector.emptyVV) file.contentVV = true
    · simp only [if_pos hdominates, if_pos hconcurrent, bind_inMemory, addConflictRefs_inMemory]
      rfl
    · simp only [if_pos hdominates, if_neg hconcurrent]
      rfl
  · simp only [if_neg hdominates, bind_inMemory, updateBlobRefs_inMemory]
    rfl

theorem createNew_inMemory :
    (inMemory uuid).createNew P now op s
      = outcome s (applyCreate P now uuid op none s) := by
  unfold OpDataStore.createNew applyCreate
  cases normalized P (op.newPath.getD op.fileId) with
  | error e => rfl
  | ok desired =>
    simp only [bind_inMemory, uniquePath_inMemory]
    cases uniquePath P s op.vaultId desired op.fileId with
    | error e => rfl
    | ok path =>
      simp only [bind_inMemory, updateBlobRefs_inMemory]
      rfl

theorem applyCreate_inMemory (existing : Option StoredFile) :
    (inMemory uuid).applyCreate P now op existing s
      = outcome s (applyCreate P now uuid op existing s) := by
  cases existing with
  | none => exact createNew_inMemory P now uuid op s
  | some file =>
    by_cases hlive : (!file.deleted) = true
    · simp only [OpDataStore.applyCreate, applyCreate, if_pos hlive]
      exact applyUpdate_inMemory now uuid op s file
    · simp only [OpDataStore.applyCreate, applyCreate, if_neg hlive]
      exact createNew_inMemory P now uuid op s

theorem applyRename_inMemory (file : StoredFile) :
    (inMemory uuid).applyRename P now op file s = outcome s (applyRename P now op file s) := by
  unfold OpDataStore.applyRename applyRename
  cases requiredPathClock op.pathClock with
  | error e => rfl
  | ok incoming =>
    by_cases hwins : (!pathClockWins incoming file.pathClock) = true
    · simp only [if_pos hwins]
      rfl
    · simp only [if_neg hwins]
      cases normalized P (op.newPath.getD file.path) with
      | error e => rfl
      | ok desired =>
        simp only [bind_inMemory, uniquePath_inMemory]
        cases uniquePath P s op.vaultId desired op.fileId <;> rfl

theorem applyRestore_inMemory (file : StoredFile) :
    (inMemory uuid).applyRestore P now op file s = outcome s (applyRestore P now op file s) := by
  unfold OpDataStore.applyRestore applyRestore
  cases normalized P (op.newPath.getD file.path) with
  | error e => rfl
  | ok desired =>
    simp only [bind_inMemory, uniquePath_inMemory]
    cases uniquePath P s op.vaultId desired op.fileId with
    | error e => rfl
    | ok path =>
      simp only [bind_inMemory, updateBlobRefs_inMemory]
      rfl

theorem mayWrite_inMemory (vaultId : String) (userId : Option String) :
    (inMemory uuid).mayWrite vaultId userId s
      = (!(truthy userId && !((s.getRole vaultId (userId.getD "")).elim false Role.canWrite)),
        s) := by
  unfold OpDataStore.mayWrite
  by_cases h : truthy userId = true
  · simp only [h, Bool.true_and, Bool.not_not]
    rfl
  · simp only [h, Bool.false_and]
    rfl

/-- The answer `checkDevice` gives, or the device it let through. -/
def deviceOutcome (userId : Option String) : Except OpApplyResult (Option StoredDevice) :=
  match checkDevice op userId s with
  | some answer => .error answer
  | none => .ok (opDevice op s)

theorem checkDevice_inMemory (userId : Option String) :
    (inMemory uuid).checkDevice op userId s = (deviceOutcome op s userId, s) := by
  unfold OpDataStore.checkDevice deviceOutcome checkDevice opDevice
  by_cases hcollab : syntheticCollab op = true
  · simp only [if_pos hcollab]
    rfl
  · simp only [if_neg hcollab]
    show (match s.getDevice op.deviceId with
      | none => _
      | some device => _ : StateM Store (Except OpApplyResult (Option StoredDevice))) s = _
    cases s.getDevice op.deviceId with
    | none => rfl
    | some device =>
      by_cases hvault : device.vaultId ≠ op.vaultId
      · simp only [if_pos hvault]
        rfl
      · by_cases hrevoked : device.revoked = true
        · simp only [if_neg hvault, if_pos hrevoked]
          rfl
        · simp only [if_neg hvault, if_neg hrevoked, bind_inMemory, mayWrite_inMemory, Bool.not_not]
          by_cases hrole : (truthy userId &&
              !((s.getRole op.vaultId (userId.getD "")).elim false Role.canWrite)) = true
          · simp only [if_pos hrole]
            rfl
          · simp only [if_neg hrole]
            by_cases hlow : op.deviceSeq < device.lastDeviceSeq + 1
            · simp only [if_pos hlow]
              show (match s.getOpByDeviceSeq op.deviceId op.deviceSeq with
                | some prior => _
                | none => _ : StateM Store (Except OpApplyResult (Option StoredDevice))) s = _
              cases s.getOpByDeviceSeq op.deviceId op.deviceSeq <;> rfl
            · by_cases hhigh : op.deviceSeq > device.lastDeviceSeq + 1
              · simp only [if_neg hlow, if_pos hhigh]
                rfl
              · simp only [if_neg hlow, if_neg hhigh]
                rfl

theorem applyOp_inMemory (file : Option StoredFile) :
    (inMemory uuid).applyOp P now op file s = outcome s (applyOp P now uuid op file s) := by
  unfold OpDataStore.applyOp applyOp
  split
  · rfl
  · split
    · rfl
    · cases op.kind with
      | create => exact applyCreate_inMemory P now uuid op s file
      | update =>
        cases file with
        | none => rfl
        | some file => exact applyUpdate_inMemory now uuid op s file
      | rename =>
        cases file with
        | none => rfl
        | some file => exact applyRename_inMemory P now uuid op s file
      | delete => cases file <;> rfl
      | restore =>
        cases file with
        | none => rfl
        | some file => exact applyRestore_inMemory P now uuid op s file

theorem commit_inMemory (device : Option StoredDevice) (applied : Applied) :
    (inMemory uuid).commit now op device applied.file applied.conflictId applied.tx
      = commit now op device applied := by
  cases device <;> rfl

/-- **Over the in-memory store the op processor is `process`.** -/
theorem process_inMemory (userId : Option String) :
    (inMemory uuid).process P now op userId s = process P now uuid op userId s := by
  unfold OpDataStore.process process
  show (match s.getOpById op.opId with
    | some existing => _
    | none => _ : StateM Store (Except PathValidationError OpApplyResult)) s = _
  cases s.getOpById op.opId with
  | some existing => rfl
  | none =>
    simp only [bind_inMemory, checkDevice_inMemory, deviceOutcome]
    cases checkDevice op userId s with
    | some answer => rfl
    | none =>
      simp only [bind_inMemory, validatePayload_inMemory]
      obtain ⟨result, tx⟩ := validatePayload P op s
      cases result with
      | error e => rfl
      | ok _ =>
        have hread : (inMemory uuid).getFile op.vaultId op.fileId tx
            = (tx.getFile op.vaultId op.fileId, tx) := rfl
        simp only [bind_inMemory, hread, applyOp_inMemory]
        cases applyOp P now uuid op (tx.getFile op.vaultId op.fileId) tx with
        | error e => rfl
        | ok applied =>
          simp only [outcome, bind_inMemory, commit_inMemory]
          rfl

end

end ObsidianSync
