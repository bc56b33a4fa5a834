import ObsidianSync.Room.Vault

/-!
# The server behind its sockets

The messages by which connections put content on the server and read it: file ops with
inline text or a blob, uploads to the bucket, resolutions of conflicts, and reads by hash.
A connection is authenticated for one vault and one device; the content is kept by hash,
for all vaults together, so what a vault may read is decided from the hashes its rows,
conflicts and ops name.

The rows are those of the in-memory data store; whether a vault holds a hash is answered
as the tables answer it, which count the hashes of resolutions as well.

## Main definitions

* `SocketServer` — the data store with the rooms, the uploads this process expects, and
  the objects in the bucket.
* `initUpload`, `completeUpload`, `getBytes`, `gcUnreferenced` — the blob store.
* `assertOpContentAccess`, `SocketServer.fileOp`, `SocketServer.resolveConflict`,
  `SocketServer.readContent` — the handlers of the messages.
* `SocketEvent`, `socketStep` — what happens, from all connections.
-/

namespace ObsidianSync

/-! ### What a vault holds -/

/-- The hashes a conflict names. -/
def ConflictRecord.hashes (conflict : ConflictRecord) : List (Option String) :=
  [conflict.baseHash, conflict.oursHash, conflict.theirsHash, conflict.resolvedHash]

/-- `PgOpDataStore.hasContentForVault`: whether a file, a conflict or an op of the vault
names the hash. -/
def Store.holdsContent (s : Store) (vaultId hash : String) : Bool :=
  (s.files.rows.any fun file => file.vaultId = vaultId ∧ file.contentHash = some hash) ||
  (s.conflicts.rows.any fun conflict => conflict.vaultId = vaultId ∧
    conflict.hashes.contains (some hash)) ||
  (s.ops.any fun op => op.vaultId = vaultId ∧
    (op.payload.contentHash = some hash ∨ op.payload.blobRef = some hash))

/-! ### The blob store -/

/-- What a handler throws. -/
inductive SocketFailure
  | sync (error : SyncError)
  | path (error : PathValidationError)
  /-- The bucket answers with an error: there is no such object. -/
  | storage
  deriving DecidableEq

/-- `throw new SyncError(code, message)` in a handler. -/
def deny {α : Type} (code : ErrorCode) (message : String) : Except SocketFailure α :=
  .error (.sync { code, message })

/-- The objects of the bucket.  The key of an object is made from a hash and stands for
it. -/
abbrev Bucket := Table (Prod.fst : String × Bytes → String)

/-- The checks of an upload that is announced. -/
def validateHashAndSize (hash : String) (size : ℕ) : Except SocketFailure Unit :=
  if !isValidContentHash hash then deny .BAD_REQUEST "Invalid content hash"
  else if !isSafeInteger size then deny .BAD_REQUEST "Invalid blob size"
  else .ok ()

/-- Whether the blob of a hash is verified. -/
def Store.blobVerified (s : Store) (hash : String) : Bool :=
  (s.getBlob hash).any fun blob => blob.state = .verified

/-- `BlobStore.initUpload`: whether the blob already exists. -/
def initUpload (hash : String) (size : ℕ) (s : Store) : Except SocketFailure Bool × Store :=
  match validateHashAndSize hash size with
  | .error e => (.error e, s)
  | .ok _ =>
    if s.blobVerified hash then (.ok true, s)
    else
      let blob := (s.getBlob hash).getD { hash, size, state := .pending }
      if blob.size ≠ size then
        (deny .BLOB_HASH_MISMATCH "Hash already registered with different size", s)
      else (.ok false, s.saveBlob { blob with state := .pending })

/-- `BlobStore.completeUpload`. -/
def completeUpload (P : Platform) (hash : String) (objects : Bucket) (s : Store) :
    Except SocketFailure BlobRecord × Store :=
  if !isValidContentHash hash then (deny .BAD_REQUEST "Invalid hash", s)
  else
    match s.getBlob hash with
    | none => (deny .BLOB_MISSING "Upload was not initialized", s)
    | some blob =>
      match objects.get? hash with
      | none => (.error .storage, s)
      | some object =>
        if object.2.length ≠ blob.size then
          (deny .BLOB_HASH_MISMATCH "Uploaded object size mismatch", s)
        else if contentHash P object.2 ≠ hash then
          (deny .BLOB_HASH_MISMATCH "Uploaded object hash mismatch", s)
        else
          let verified := { blob with state := BlobState.verified, unreferencedAt := none }
          (.ok verified, s.saveBlob verified)

/-- `BlobStore.getBytes`: the object of a verified blob, if it still has its hash. -/
def getBytes (P : Platform) (hash : String) (objects : Bucket) (s : Store) :
    Except SocketFailure (Option Bytes) :=
  if !isValidContentHash hash then deny .BAD_REQUEST "Invalid hash"
  else if !s.blobVerified hash then .ok none
  else
    match objects.get? hash with
    | none => .error .storage
    | some object =>
      if contentHash P object.2 ≠ hash then deny .BLOB_HASH_MISMATCH "Blob hash mismatch"
      else .ok (some object.2)

/-- What the collector saves for a blob, if anything: a mark on one without references, and
its deletion where the mark is old enough. -/
def collected (minAgeMs : ℤ) (now : Time) (s : Store) (blob : BlobRecord) : Option BlobRecord :=
  if !(s.listBlobRefs blob.hash).isEmpty || blob.state = .deleted then none
  else
    match blob.unreferencedAt with
    | none => some { blob with state := .unreferenced, unreferencedAt := some now }
    | some markTime =>
      if (now : ℤ) - markTime ≥ minAgeMs then some { blob with state := .deleted } else none

/-- `BlobStore.gcUnreferenced` over the in-memory store: the hashes it removes. -/
def gcUnreferenced (minAgeMs : ℤ) (now : Time) (s : Store) : List String × Store :=
  s.blobs.rows.foldl
    (fun (removed, data) blob =>
      match collected minAgeMs now data blob with
      | none => (removed, data)
      | some saved =>
        (if saved.state = .deleted then removed ++ [blob.hash] else removed, data.saveBlob saved))
    ([], s)

/-! ### Handlers -/

/-- What a connection is authenticated for. -/
structure Connection where
  vaultId : String
  deviceId : String
  userId : String
  deriving DecidableEq, Repr

/-- The server: the data store with the rooms, the uploads it has handed out by vault and
hash, and the bucket. -/
structure SocketServer (D : Type) where
  sync : SyncServer D
  pendingBlobOwners : List (String × String) := []
  objects : Bucket := Table.empty

section

variable {D : Type} [SemilatticeSup D] [OrderBot D] (P : Platform)

/-- The server with another data store. -/
def SocketServer.withData (s : SocketServer D) (data : Store) : SocketServer D :=
  { s with sync := { s.sync with data } }

/-- Whether the vault may name the hash: it holds it, or has announced its upload. -/
def SocketServer.available (s : SocketServer D) (vaultId hash : String) : Bool :=
  s.sync.data.holdsContent vaultId hash || decide ((vaultId, hash) ∈ s.pendingBlobOwners)

/-- `assertOpContentAccess`.  An op with an inline text or without a hash is let through
as it is, and of one with both a hash and a blob only the blob is looked at. -/
def assertOpContentAccess (s : SocketServer D) (connection : Connection) (op : FileOp) :
    Except SocketFailure Unit :=
  if op.inlineText.isSome || !truthy op.contentHash then .ok ()
  else if s.available connection.vaultId ((op.blobRef.or op.contentHash).getD "") then .ok ()
  else deny .FORBIDDEN "Content hash is not available for this vault"

/-- The handler of `file_op`. -/
def SocketServer.fileOp (s : SocketServer D) (connection : Connection) (now : Time) (uuid : Uuid)
    (op : FileOp) : Except SocketFailure OpApplyResult × SocketServer D :=
  if op.deviceId ≠ connection.deviceId ∨ op.vaultId ≠ connection.vaultId then
    (deny .UNAUTHENTICATED "Operation device/vault must match the authenticated connection", s)
  else
    match assertOpContentAccess s connection op with
    | .error e => (.error e, s)
    | .ok _ =>
      match process P now uuid op (some connection.userId) s.sync.data with
      | (.error e, data) => (.error (.path e), s.withData data)
      | (.ok (.reject result), data) => (.ok (.reject result), s.withData data)
      | (.ok (.ack result), data) =>
        let s := s.withData data
        (.ok (.ack result),
          if truthy op.blobRef then
            { s with pendingBlobOwners := s.pendingBlobOwners.filter fun owner =>
                owner ≠ (connection.vaultId, op.blobRef.getD "") }
          else s)

/-- The handler of `blob_upload_init`. -/
def SocketServer.blobUploadInit (s : SocketServer D) (connection : Connection) (hash : String)
    (size : ℕ) : Except SocketFailure Bool × SocketServer D :=
  match initUpload hash size s.sync.data with
  | (.error e, data) => (.error e, s.withData data)
  | (.ok true, data) => (.ok true, s.withData data)
  | (.ok false, data) =>
    let s := s.withData data
    (.ok false,
      { s with pendingBlobOwners := (connection.vaultId, hash) :: s.pendingBlobOwners })

/-- The handler of `resolve_conflict`.  The tables count the hash of an earlier resolution
as content of the vault; `resolve` asks for the others itself. -/
def SocketServer.resolveConflict (s : SocketServer D) (connection : Connection) (now : Time)
    (conflictId : String) (resolvedHash inlineText : Option String) (resolvedVV : VersionVector) :
    Except SyncError ConflictRecord × SocketServer D :=
  let (answer, data) := resolve P now
    { vaultId := connection.vaultId, userId := connection.userId, conflictId
      deviceId := connection.deviceId, resolvedHash, inlineText, resolvedVV
      allowPendingResolvedHash := resolvedHash.any fun hash =>
        s.available connection.vaultId hash } s.sync.data
  (answer, s.withData data)

/-- The handler of `get_content`: kept text before the object of a blob. -/
def SocketServer.readContent (s : SocketServer D) (connection : Connection) (hash : String) :
    Except SocketFailure (Option Bytes) :=
  if !s.sync.data.holdsContent connection.vaultId hash then
    deny .FORBIDDEN "Content is not available for this vault"
  else if !isValidContentHash hash then deny .BAD_REQUEST "Invalid content hash"
  else
    match s.sync.data.getContent hash with
    | some bytes => .ok (some bytes)
    | none => getBytes P hash s.objects s.sync.data

/-! ### Events -/

/-- What happens: a message of a connection, a request to the bucket under an upload URL, a
call on the room of a note, a change of the devices or roles, or a restart of the server. -/
inductive SocketEvent (D : Type)
  | fileOp (connection : Connection) (now : Time) (uuid : Uuid) (op : FileOp)
  | blobUploadInit (connection : Connection) (hash : String) (size : ℕ)
  | putObject (hash : String) (bytes : Bytes)
  | blobUploadComplete (connection : Connection) (hash : String)
  | claimConflict (connection : Connection) (conflictId : String)
  | releaseConflict (connection : Connection) (conflictId : String)
  | resolveConflict (connection : Connection) (now : Time) (conflictId : String)
      (resolvedHash inlineText : Option String) (resolvedVV : VersionVector)
  | getContent (connection : Connection) (hash : String)
  | room (vaultId fileId : String) (event : RoomEvent D)
  | saveDevice (device : StoredDevice)
  | setRole (vaultId userId : String) (role : Role)
  | restart

/-- The server after an event. -/
def socketStep (cfg : RoomConfig D) (s : SocketServer D) : SocketEvent D → SocketServer D
  | .fileOp connection now uuid op => (s.fileOp cfg.platform connection now uuid op).2
  | .blobUploadInit connection hash size => (s.blobUploadInit connection hash size).2
  | .putObject hash bytes => { s with objects := s.objects.set (hash, bytes) }
  | .blobUploadComplete _ hash =>
    s.withData (completeUpload cfg.platform hash s.objects s.sync.data).2
  | .claimConflict connection conflictId =>
    s.withData
      (claim connection.vaultId connection.userId connection.deviceId conflictId s.sync.data).2
  | .releaseConflict connection conflictId =>
    s.withData
      (release connection.vaultId connection.userId connection.deviceId conflictId s.sync.data).2
  | .resolveConflict connection now conflictId resolvedHash inlineText resolvedVV =>
    (s.resolveConflict cfg.platform connection now conflictId resolvedHash inlineText resolvedVV).2
  | .getContent _ _ => s
  -- the calls of Layer 1 come as messages of their own
  | .room _ _ (.layer1 _) => s
  | .room vaultId fileId event =>
    { s with sync := syncStep cfg s.sync (.room vaultId fileId event) }
  | .saveDevice device => s.withData (s.sync.data.saveDevice device)
  | .setRole vaultId userId role =>
    s.withData { s.sync.data with roles := s.sync.data.roles.set ((vaultId, userId), role) }
  -- what is only in memory is gone
  | .restart =>
    { s with
      sync := { s.sync with rooms := fun note => { s.sync.rooms note with runtime := none } }
      pendingBlobOwners := [] }

/-! ### What the handlers do -/

variable {cfg : RoomConfig D}

omit [SemilatticeSup D] [OrderBot D] in
/-- A `file_op` does nothing, or it passes the guards of the socket and is processed; a
commit may end the wait for its blob. -/
theorem fileOp_cases (P : Platform) (s : SocketServer D) (connection : Connection) (now : Time)
    (uuid : Uuid) (op : FileOp) :
    (s.fileOp P connection now uuid op).2 = s ∨
    (op.deviceId = connection.deviceId ∧ op.vaultId = connection.vaultId ∧
      assertOpContentAccess s connection op = .ok () ∧
      (s.fileOp P connection now uuid op).2.sync.data
        = (process P now uuid op (some connection.userId) s.sync.data).2 ∧
      (s.fileOp P connection now uuid op).2.objects = s.objects ∧
      (s.fileOp P connection now uuid op).2.pendingBlobOwners ⊆ s.pendingBlobOwners) := by
  unfold SocketServer.fileOp
  split
  · exact Or.inl rfl
  next hown =>
  rw [not_or, not_not, not_not] at hown
  split
  · exact Or.inl rfl
  next haccess =>
  refine Or.inr ⟨hown.1, hown.2, haccess, ?_⟩
  split
  next hprocess =>
    rw [hprocess]
    exact ⟨rfl, rfl, List.Subset.refl _⟩
  next hprocess =>
    rw [hprocess]
    exact ⟨rfl, rfl, List.Subset.refl _⟩
  next hprocess =>
    rw [hprocess]
    dsimp only
    split
    · exact ⟨rfl, rfl, List.filter_sublist.subset⟩
    · exact ⟨rfl, rfl, List.Subset.refl _⟩

/-- An announced upload writes the row of its blob at most, and waits only for blobs that are
not verified. -/
theorem initUpload_cases (hash : String) (size : ℕ) (s : Store) :
    ((initUpload hash size s).2 = s ∨ ∃ blob, (initUpload hash size s).2 = s.saveBlob blob) ∧
      ((initUpload hash size s).1 = .ok false → s.blobVerified hash = false) := by
  unfold initUpload
  split
  · exact ⟨Or.inl rfl, by simp⟩
  split
  · exact ⟨Or.inl rfl, by simp⟩
  next hverified =>
  have hverified : s.blobVerified hash = false := by simpa using hverified
  dsimp only
  split
  · exact ⟨Or.inl rfl, fun _ => hverified⟩
  · exact ⟨Or.inr ⟨_, rfl⟩, fun _ => hverified⟩

theorem completeUpload_cases (P : Platform) (hash : String) (objects : Bucket) (s : Store) :
    (completeUpload P hash objects s).2 = s ∨
      ∃ blob, (completeUpload P hash objects s).2 = s.saveBlob blob := by
  unfold completeUpload
  split
  · exact Or.inl rfl
  split
  · exact Or.inl rfl
  split
  · exact Or.inl rfl
  split
  · exact Or.inl rfl
  split
  · exact Or.inl rfl
  · exact Or.inr ⟨_, rfl⟩

omit [SemilatticeSup D] [OrderBot D] in
theorem data_blobUploadInit (s : SocketServer D) (connection : Connection) (hash : String)
    (size : ℕ) : (s.blobUploadInit connection hash size).2.sync.data
      = (initUpload hash size s.sync.data).2 := by
  unfold SocketServer.blobUploadInit
  split <;> simp_all [SocketServer.withData]

/-- A call on a room makes its store calls, on the data store too. -/
theorem socketStep_room (cfg : RoomConfig D) (s : SocketServer D) (vaultId fileId : String)
    (event : RoomEvent D) :
    (socketStep cfg s (.room vaultId fileId event)).sync.data
        = (match event.finds (s.sync.room vaultId fileId) with
          | none => s.sync.data
          | some room => (storeCalls (cfg.ofNote vaultId fileId) room event).foldl
              (fun data call => call.1.runData (cfg.ofNote vaultId fileId) data) s.sync.data) ∧
      (socketStep cfg s (.room vaultId fileId event)).objects = s.objects ∧
      (socketStep cfg s (.room vaultId fileId event)).pendingBlobOwners = s.pendingBlobOwners := by
  by_cases hlayer1 : ∃ call, event = .layer1 call
  · obtain ⟨call, rfl⟩ := hlayer1
    exact ⟨rfl, rfl, rfl⟩
  have hstep : socketStep cfg s (.room vaultId fileId event)
      = { s with sync := syncStep cfg s.sync (.room vaultId fileId event) } := by
    unfold socketStep
    split <;> simp_all
  rw [hstep]
  refine ⟨?_, rfl, rfl⟩
  show (roomStep (cfg.ofNote vaultId fileId) (s.sync.room vaultId fileId) event).data = _
  cases hfinds : event.finds (s.sync.room vaultId fileId) with
  | none =>
    rcases roomStep_of_finds_none (cfg.ofNote vaultId fileId) hfinds with hcall | rfl | hsame
    · exact absurd hcall hlayer1
    · rfl
    · rw [hsame]
      rfl
  | some room =>
    rw [roomStep_of_finds hfinds, ← ran_storeCalls, ← materialize_of_finds hfinds]
    rfl

/-- **What the calls on the data store keep, the messages keep**: every event makes a series
of such calls, and the rooms write leases besides. -/
theorem invariant_socketStep {I : Store → Prop}
    (hserver : ∀ data e, I data → I (serverStep cfg.platform data e))
    (hset : ∀ data vaultId fileId activeUntil, I data →
      I (setActiveUntil vaultId fileId activeUntil data))
    (hclear : ∀ data vaultId fileId, I data → I (clearActiveUntil vaultId fileId data))
    {s : SocketServer D} (h : I s.sync.data) (e : SocketEvent D) :
    I (socketStep cfg s e).sync.data := by
  have hblob : ∀ {data : Store}, (data = s.sync.data ∨ ∃ blob, data = s.sync.data.saveBlob blob) →
      I data := by
    rintro data (rfl | ⟨blob, rfl⟩)
    · exact h
    · exact hserver _ (.saveBlob blob) h
  cases e with
  | fileOp connection now uuid op =>
    rcases fileOp_cases cfg.platform s connection now uuid op with hsame | ⟨-, -, -, hdata, -⟩
    · simp only [socketStep, hsame]
      exact h
    · simp only [socketStep, hdata]
      exact hserver _ (.process now uuid op (some connection.userId)) h
  | blobUploadInit connection hash size =>
    simp only [socketStep, data_blobUploadInit]
    exact hblob (initUpload_cases hash size s.sync.data).1
  | blobUploadComplete connection hash =>
    exact hblob (completeUpload_cases cfg.platform hash s.objects s.sync.data)
  | claimConflict connection conflictId =>
    exact hserver _
      (.claim connection.vaultId connection.userId connection.deviceId conflictId) h
  | releaseConflict connection conflictId =>
    exact hserver _
      (.release connection.vaultId connection.userId connection.deviceId conflictId) h
  | resolveConflict connection now conflictId resolvedHash inlineText resolvedVV =>
    exact hserver _ (.resolve now _) h
  | saveDevice device => exact hserver _ (.saveDevice device) h
  | setRole vaultId userId role => exact hserver _ (.setRole vaultId userId role) h
  | putObject | getContent | restart => exact h
  | room vaultId fileId event =>
    by_cases hlayer1 : ∃ call, event = .layer1 call
    · -- calls on the data store come as messages of their own
      obtain ⟨call, rfl⟩ := hlayer1
      exact h
    · have hstep : (socketStep cfg s (.room vaultId fileId event)).sync.data
          = (roomStep (cfg.ofNote vaultId fileId) (s.sync.room vaultId fileId) event).data := by
        cases event with
        | layer1 call => exact absurd ⟨call, rfl⟩ hlayer1
        | promote | handleUpdate | handleSync | heartbeat | leave | disconnect | demote
        | closeDeleted | closingTimer | sweepExpired | closeAll | compact | restoreHistoryVersion
        | restart => rfl
      rw [hstep]
      exact invariant_roomStep (cfg.ofNote vaultId fileId) hserver
        (fun data => hset data vaultId fileId) (fun data => hclear data vaultId fileId) h event

end

end ObsidianSync
