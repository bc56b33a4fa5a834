import ObsidianSync.Socket.Holdings
import ObsidianSync.Socket.Secrecy

/-!
# Uploads in parts

`BlobUploader.upload` announces a blob, puts the object where it is asked to and
says so; the op that names the blob comes after.  The handlers on the server wait
for the data store and the bucket in between, and the handlers of other
connections run meanwhile.  Here every wait is a step of its own.

## Main definitions

* `initRead`, `initWrite` — `initUpload` before and after it reads the row.
* `completeRead`, `completeHead`, `completeGet`, `completeSave` — the parts of
  `completeUpload`.
* `SocketServer.answerOp` — the handler of `file_op` after the guard.
* `Uploading`, `UploadServer`, `uploadStep` — clients with their uploads, and what happens.
* `Refused` — an op of an upload is refused.
* `KeepsUploads` — what has to be met for uploads to go through.

## Main results

* `initUpload_eq`, `completeUpload_eq`, `fileOp_eq` — the parts make up the handlers.
* `not_refused_of_keepsUploads` — the runs in which no upload is refused.
-/

namespace ObsidianSync

/-! ### The parts of the handlers -/

/-- `initUpload`, up to the row of the blob. -/
def initRead (hash : String) (size : ℕ) (s : Store) :
    Except SocketFailure (Option BlobRecord) :=
  match validateHashAndSize hash size with
  | .error e => .error e
  | .ok _ => .ok (s.getBlob hash)

/-- The rest of `initUpload`, with the row it has read. -/
def initWrite (hash : String) (size : ℕ) (existing : Option BlobRecord) (s : Store) :
    Except SocketFailure Bool × Store :=
  if existing.any fun blob => blob.state = .verified then (.ok true, s)
  else
    let blob := existing.getD { hash, size, state := .pending }
    if blob.size ≠ size then
      (deny .BLOB_HASH_MISMATCH "Hash already registered with different size", s)
    else (.ok false, s.saveBlob { blob with state := .pending })

/-- `completeUpload`, up to the row of the blob. -/
def completeRead (hash : String) (s : Store) : Except SocketFailure BlobRecord :=
  if !isValidContentHash hash then deny .BAD_REQUEST "Invalid hash"
  else
    match s.getBlob hash with
    | none => deny .BLOB_MISSING "Upload was not initialized"
    | some blob => .ok blob

/-- The size of the object. -/
def completeHead (hash : String) (blob : BlobRecord) (objects : Bucket) :
    Except SocketFailure Unit :=
  match objects.get? hash with
  | none => .error .storage
  | some object =>
    if object.2.length ≠ blob.size then
      deny .BLOB_HASH_MISMATCH "Uploaded object size mismatch"
    else .ok ()

/-- The hash of the object. -/
def completeGet (P : Platform) (hash : String) (objects : Bucket) : Except SocketFailure Unit :=
  match objects.get? hash with
  | none => .error .storage
  | some object =>
    if contentHash P object.2 ≠ hash then
      deny .BLOB_HASH_MISMATCH "Uploaded object hash mismatch"
    else .ok ()

/-- The row of a complete upload. -/
def completeSave (blob : BlobRecord) : BlobRecord :=
  { blob with state := .verified, unreferencedAt := none }

theorem initUpload_eq (hash : String) (size : ℕ) (s : Store) :
    initUpload hash size s = match initRead hash size s with
      | .error e => (.error e, s)
      | .ok existing => initWrite hash size existing s := by
  unfold initUpload initRead
  cases validateHashAndSize hash size with
  | error e => rfl
  | ok u => rfl

theorem completeUpload_eq (P : Platform) (hash : String) (objects : Bucket) (s : Store) :
    completeUpload P hash objects s = match completeRead hash s with
      | .error e => (.error e, s)
      | .ok blob =>
        match completeHead hash blob objects with
        | .error e => (.error e, s)
        | .ok _ =>
          match completeGet P hash objects with
          | .error e => (.error e, s)
          | .ok _ => (.ok (completeSave blob), s.saveBlob (completeSave blob)) := by
  unfold completeUpload completeRead completeHead completeGet
  split
  · rfl
  cases s.getBlob hash with
  | none => rfl
  | some blob =>
    cases objects.get? hash with
    | none => rfl
    | some object =>
      by_cases hsize : object.2.length ≠ blob.size
      · simp only [deny, if_pos hsize]
      · by_cases hhash : contentHash P object.2 ≠ hash
        · simp only [deny, if_neg hsize, if_pos hhash]
        · simp only [if_neg hsize, if_neg hhash]
          rfl

section

variable {D : Type} (P : Platform)

/-- The handler of `file_op`, after the guard. -/
def SocketServer.answerOp (s : SocketServer D) (connection : Connection) (now : Time)
    (uuid : Uuid) (op : FileOp) : Except SocketFailure OpApplyResult × SocketServer D :=
  match process P now uuid op (some connection.userId) s.sync.data with
  | (.error e, data) => (.error (.path e), s.withData data)
  | (.ok (.reject result), data) => (.ok (.reject result), s.withData data)
  | (.ok (.ack result), data) =>
    let s := s.withData data
    (.ok (.ack result),
      if truthy op.blobRef then
        { s with pendingBlobOwners := s.pendingBlobOwners.filter fun owner =>
            owner ≠ (connection.vaultId, op.blobRef.getD "") }
      else s)

theorem fileOp_eq (s : SocketServer D) (connection : Connection) (now : Time) (uuid : Uuid)
    {op : FileOp} (hdevice : op.deviceId = connection.deviceId)
    (hvault : op.vaultId = connection.vaultId) :
    s.fileOp P connection now uuid op = match assertOpContentAccess s connection op with
      | .error e => (.error e, s)
      | .ok _ => s.answerOp P connection now uuid op := by
  unfold SocketServer.fileOp
  rw [if_neg (by simp [hdevice, hvault])]
  rfl

/-! ### Clients -/

/-- How far an upload is, on the client and on the server. -/
inductive UploadPhase
  /-- The handler of `blob_upload_init` has read the row. -/
  | opening (existing : Option BlobRecord)
  /-- The client has a URL. -/
  | announced
  /-- The object is put, and `blob_upload_complete` is sent. -/
  | stored
  /-- The handler has read the row. -/
  | completing (blob : BlobRecord)
  /-- The size of the object is right. -/
  | measured (blob : BlobRecord)
  /-- The hash of the object is right. -/
  | hashed (blob : BlobRecord)
  /-- `upload` has returned, and the op may be sent. -/
  | ready
  /-- The op has passed the guard. -/
  | admitted (op : FileOp)
  /-- There is no upload any more. -/
  | over
  deriving DecidableEq

/-- The upload of a client. -/
structure Uploading where
  client : ℕ
  connection : Connection
  bytes : Bytes
  phase : UploadPhase
  deriving DecidableEq

/-- The hash the upload is for. -/
def Uploading.hash (u : Uploading) : String := contentHash P u.bytes

/-- The op brings what the client has uploaded. -/
structure BringsUpload (u : Uploading) (op : FileOp) : Prop where
  deviceId : op.deviceId = u.connection.deviceId
  vaultId : op.vaultId = u.connection.vaultId
  kind : op.kind = .create ∨ op.kind = .update
  contentHash : op.contentHash = some (u.hash P)
  blobRef : op.blobRef = some (u.hash P)
  size : op.size = some u.bytes.length
  inlineText : op.inlineText = none

instance (u : Uploading) (op : FileOp) : Decidable (BringsUpload P u op) :=
  decidable_of_iff (op.deviceId = u.connection.deviceId ∧ op.vaultId = u.connection.vaultId ∧
      (op.kind = .create ∨ op.kind = .update) ∧ op.contentHash = some (u.hash P) ∧
      op.blobRef = some (u.hash P) ∧ op.size = some u.bytes.length ∧ op.inlineText = none)
    ⟨fun ⟨h₁, h₂, h₃, h₄, h₅, h₆, h₇⟩ => ⟨h₁, h₂, h₃, h₄, h₅, h₆, h₇⟩,
      fun h => ⟨h.1, h.2, h.3, h.4, h.5, h.6, h.7⟩⟩

/-- The server, with the uploads of its clients. -/
structure UploadServer (D : Type) where
  server : SocketServer D
  uploads : Table Uploading.client := Table.empty

/-- The next thing that happens in an upload. -/
inductive UploadStep
  /-- `blob_upload_init` arrives. -/
  | start (connection : Connection) (bytes : Bytes)
  | announce
  | put
  /-- `blob_upload_complete` arrives. -/
  | complete
  | head
  | get
  | save
  /-- The op arrives. -/
  | send (op : FileOp)
  | process (now : Time) (uuid : Uuid)

/-- What happens: the parts of uploads, and what other connections and the rest of the
server do in one go. -/
inductive UploadEvent
  | upload (client : ℕ) (step : UploadStep)
  | fileOp (connection : Connection) (now : Time) (uuid : Uuid) (op : FileOp)
  | blobUploadInit (connection : Connection) (hash : String) (size : ℕ)
  | blobUploadComplete (hash : String)
  | putObject (hash : String) (bytes : Bytes)
  /-- A call of a room or of the conflict service, or a change of devices and roles. -/
  | call (event : ServerEvent)
  /-- A client goes on to its op before the server is done with what it has sent: its connection
  breaks, or the answer to another upload of the same bytes comes first.  What it has sent stays
  with the old client, and may still arrive or not; the op is sent by the new one. -/
  | resume (client heir : ℕ)
  /-- The server restarts, and all connections break.  For each client, whether the message that
  was on its way arrives all the same. -/
  | restart (arrives : ℕ → Bool)

namespace UploadServer

variable {P} (s : UploadServer D)

/-- The upload of a client goes on in another phase. -/
def enter (u : Uploading) (phase : UploadPhase) : UploadServer D :=
  { s with uploads := s.uploads.set { u with phase } }

/-- The server with another row of a blob. -/
def saveBlob (blob : BlobRecord) : UploadServer D :=
  { s with server := s.server.withData (s.server.sync.data.saveBlob blob) }

end UploadServer

/-- A client without an upload begins one. -/
def startUpload (s : UploadServer D) (client : ℕ) (connection : Connection) (bytes : Bytes) :
    UploadServer D :=
  match initRead (contentHash P bytes) bytes.length s.server.sync.data with
  | .error _ => s
  | .ok existing =>
    { s with uploads := s.uploads.set { client, connection, bytes, phase := .opening existing } }

/-- The answer to `blob_upload_init`: an error ends the upload. -/
def announceUpload (s : UploadServer D) (u : Uploading) (existing : Option BlobRecord) :
    UploadServer D :=
  match initWrite (u.hash P) u.bytes.length existing s.server.sync.data with
  | (.error _, _) => s.enter u .over
  | (.ok true, _) => s.enter u .ready
  | (.ok false, data) =>
    UploadServer.enter
      { s with server :=
        { s.server.withData data with
          pendingBlobOwners :=
            (u.connection.vaultId, u.hash P) :: s.server.pendingBlobOwners } }
      u .announced

/-- The next part of the upload of a client.  Where `blob_upload_complete` fails, the client has
the hash all the same: it does not wait for the answer. -/
def advanceUpload (s : UploadServer D) (u : Uploading) (step : UploadStep) : UploadServer D :=
  match u.phase, step with
  | .opening existing, .announce => announceUpload P s u existing
  | .announced, .put =>
    UploadServer.enter
      { s with server :=
        { s.server with objects := s.server.objects.set (u.hash P, u.bytes) } } u .stored
  | .stored, .complete =>
    match completeRead (u.hash P) s.server.sync.data with
    | .error _ => s.enter u .ready
    | .ok blob => s.enter u (.completing blob)
  | .completing blob, .head =>
    match completeHead (u.hash P) blob s.server.objects with
    | .error _ => s.enter u .ready
    | .ok _ => s.enter u (.measured blob)
  | .measured blob, .get =>
    match completeGet P (u.hash P) s.server.objects with
    | .error _ => s.enter u .ready
    | .ok _ => s.enter u (.hashed blob)
  | .hashed blob, .save => (s.saveBlob (completeSave blob)).enter u .ready
  | .ready, .send op =>
    if BringsUpload P u op then
      match assertOpContentAccess s.server u.connection op with
      | .error _ => s.enter u .over
      | .ok _ => s.enter u (.admitted op)
    else s
  | .admitted op, .process now uuid =>
    UploadServer.enter
      { s with server := (s.server.answerOp P u.connection now uuid op).2 } u .over
  | _, _ => s

/-- A new client goes on with the upload of another one, as if it were done. -/
def resumeUpload (s : UploadServer D) (client heir : ℕ) : UploadServer D :=
  match s.uploads.get? client, s.uploads.get? heir with
  | some u, none => if u.phase = .over then s else s.enter { u with client := heir } .ready
  | _, _ => s

/-- An upload after a restart of the server.  The client goes on with it: a URL is still good, what
it sends waits for the next connection, and an op without an answer is sent again.  A handler
that was at work on the server is gone. -/
def restarted (arrives : Bool) (u : Uploading) : Uploading :=
  { u with phase :=
      match u.phase with
      -- without the answer to `blob_upload_init` the client gives up
      | .announced => if arrives then .announced else .over
      | .stored => if arrives then .stored else .ready
      | .completing _ | .measured _ | .hashed _ | .ready | .admitted _ => .ready
      | .opening _ | .over => .over }

/-- What happens, step by step. -/
def uploadStep (s : UploadServer D) : UploadEvent → UploadServer D
  | .upload client (.start connection bytes) =>
    match (s.uploads.get? client).filter fun u => u.phase ≠ .over with
    | none => startUpload P s client connection bytes
    | some _ => s
  | .upload client step =>
    match s.uploads.get? client with
    | none => s
    | some u => advanceUpload P s u step
  | .fileOp connection now uuid op =>
    { s with server := (s.server.fileOp P connection now uuid op).2 }
  | .blobUploadInit connection hash size =>
    { s with server := (s.server.blobUploadInit connection hash size).2 }
  | .blobUploadComplete hash =>
    { s with server :=
        s.server.withData (completeUpload P hash s.server.objects s.server.sync.data).2 }
  | .putObject hash bytes =>
    { s with server := { s.server with objects := s.server.objects.set (hash, bytes) } }
  | .resume client heir => resumeUpload s client heir
  -- the rows of blobs are written by uploads only
  | .call (.saveBlob _) => s
  | .call event =>
    { s with server := s.server.withData (serverStep P s.server.sync.data event) }
  | .restart arrives =>
    { server :=
        { s.server with
          sync := { s.server.sync with
            rooms := fun note => { s.server.sync.rooms note with runtime := none } }
          pendingBlobOwners := [] }
      uploads := s.uploads.mapRows (fun u => restarted (arrives u.client) u) fun _ => rfl }

/-! ### Refusals -/

/-- Whether the answer refuses an op for its access or for its blob. -/
def refusedAnswer : Except SocketFailure OpApplyResult → Bool
  | .ok (.reject result) => result.code = .FORBIDDEN ∨ result.code = .BLOB_MISSING
  | _ => false

/-- Whether the op of an upload is refused: by the guard, or by the processor although the
device may write. -/
def refused (s : UploadServer D) : UploadEvent → Bool
  | .upload client (.send op) => (s.uploads.get? client).any fun u =>
    u.phase = .ready ∧ BringsUpload P u op ∧
      (assertOpContentAccess s.server u.connection op).isOk = false
  | .upload client (.process now uuid) => (s.uploads.get? client).any fun u =>
    match u.phase with
    | .admitted op =>
      (s.server.sync.data.getRole u.connection.vaultId u.connection.userId).elim false
          Role.canWrite &&
        refusedAnswer (s.server.answerOp P u.connection now uuid op).1
    | _ => false
  | _ => false

/-! ### Uploads that go through -/

namespace UploadPhase

/-- The client relies on the blob being verified. -/
def settled : UploadPhase → Bool
  | opening existing => existing.any fun blob => blob.state = .verified
  | ready | admitted _ => true
  | _ => false

/-- The client uploads the object itself. -/
def working : UploadPhase → Bool
  | announced | stored | completing _ | measured _ | hashed _ => true
  | _ => false

/-- The object is put and has not been read to its end. -/
def unread : UploadPhase → Bool
  | stored | completing _ | measured _ => true
  | _ => false

/-- The handler of `blob_upload_init` is about to write the row. -/
def writesRow : UploadPhase → Bool
  | opening existing => !existing.any fun blob => blob.state = .verified
  | _ => false

/-- The op is in the hands of the processor. -/
def admittedOp : UploadPhase → Option FileOp
  | admitted op => some op
  | _ => none

end UploadPhase

/-- An op that names what is uploaded goes through: the blob is verified and has the size of the
bytes, and the vault holds its hash or has announced it. -/
def UploadServer.goesThrough (s : UploadServer D) (u : Uploading) : Bool :=
  (s.server.sync.data.getBlob (u.hash P)).any (fun blob =>
      blob.state = .verified ∧ blob.size = u.bytes.length) &&
    s.server.available u.connection.vaultId (u.hash P)

/-- A replayed op ends the wait for its blob.  The uploads that have announced it do not need
that any more, as the vault holds the hash. -/
def ReplayHeld (s : UploadServer D) (waiting : List Uploading) (connection : Connection)
    (op : FileOp) : Prop :=
  (s.server.sync.data.getOpById op.opId).isSome = true ∨
      (s.server.sync.data.getOpByDeviceSeq op.deviceId op.deviceSeq).isSome = true →
    ∀ u ∈ waiting, (u.phase.settled || u.phase.working) = true →
      u.connection.vaultId = connection.vaultId → op.blobRef = some (u.hash P) →
        s.server.sync.data.holdsContent connection.vaultId (u.hash P) = true

instance (s : UploadServer D) (waiting : List Uploading) (connection : Connection)
    (op : FileOp) : Decidable (ReplayHeld P s waiting connection op) := by
  unfold ReplayHeld
  infer_instance

/-- What has to be met for the uploads to go through.

* A blob that is verified already has the size of the bytes, and the vault holds its hash or
  has announced it.
* The row of a blob is not made pending again while a client relies on it, and two uploads of
  one hash have one size.
* What is put under a key that is being checked has its hash and its size.
* A replay forgets no announcement that is still needed.
* A client that goes on before the server is done has a blob that is verified.
* At a restart the vaults hold the hashes of the uploads that go on, and the blobs of the ops
  that are sent next are verified. -/
def KeepsUploads (s : UploadServer D) : UploadEvent → Prop
  | .upload _ (.start connection bytes) =>
    ∀ blob ∈ s.server.sync.data.getBlob (contentHash P bytes), blob.state = .verified →
      blob.size = bytes.length ∧
        s.server.available connection.vaultId (contentHash P bytes) = true
  -- what others rely on is not made pending again under them
  | .upload client .announce =>
    ∀ u ∈ s.uploads.get? client, u.phase.writesRow = true → ∀ other ∈ s.uploads.rows,
      other.client ≠ client → other.hash P = u.hash P → other.phase.settled = false ∧
        (other.phase.working = true → other.bytes.length = u.bytes.length)
  | .upload client (.process _ _) =>
    ∀ u ∈ s.uploads.get? client, ∀ op ∈ u.phase.admittedOp,
      ReplayHeld P s (s.uploads.rows.filter fun other => other.client ≠ client) u.connection op
  | .fileOp connection _ _ op => ReplayHeld P s s.uploads.rows connection op
  | .putObject hash bytes =>
    ∀ u ∈ s.uploads.rows, u.phase.unread = true → u.hash P = hash →
      contentHash P bytes = hash ∧ bytes.length = u.bytes.length
  | .resume client _ =>
    ∀ u ∈ s.uploads.get? client, u.phase ≠ .over → s.goesThrough P u = true
  -- the owners are lost: only what a vault holds is still its own
  | .restart arrives => ∀ u ∈ s.uploads.rows,
    let phase := (restarted (arrives u.client) u).phase
    ((phase.settled || phase.working) = true →
        s.server.sync.data.holdsContent u.connection.vaultId (u.hash P) = true) ∧
      (phase.settled = true → s.server.sync.data.blobVerified (u.hash P) = true)
  | _ => True

instance (s : UploadServer D) : (e : UploadEvent) → Decidable (KeepsUploads P s e)
  | .upload _ (.start connection bytes) =>
    inferInstanceAs (Decidable (∀ blob ∈ s.server.sync.data.getBlob (contentHash P bytes),
      blob.state = .verified → blob.size = bytes.length ∧
        s.server.available connection.vaultId (contentHash P bytes) = true))
  | .upload client .announce =>
    inferInstanceAs (Decidable (∀ u ∈ s.uploads.get? client, u.phase.writesRow = true →
      ∀ other ∈ s.uploads.rows, other.client ≠ client → other.hash P = u.hash P →
        other.phase.settled = false ∧
          (other.phase.working = true → other.bytes.length = u.bytes.length)))
  | .upload client (.process _ _) =>
    inferInstanceAs (Decidable (∀ u ∈ s.uploads.get? client, ∀ op ∈ u.phase.admittedOp,
      ReplayHeld P s (s.uploads.rows.filter fun other => other.client ≠ client)
        u.connection op))
  | .fileOp connection _ _ op =>
    inferInstanceAs (Decidable (ReplayHeld P s s.uploads.rows connection op))
  | .putObject hash bytes =>
    inferInstanceAs (Decidable (∀ u ∈ s.uploads.rows, u.phase.unread = true →
      u.hash P = hash → contentHash P bytes = hash ∧ bytes.length = u.bytes.length))
  | .resume client _ =>
    inferInstanceAs (Decidable (∀ u ∈ s.uploads.get? client, u.phase ≠ .over →
      s.goesThrough P u = true))
  | .restart arrives =>
    inferInstanceAs (Decidable (∀ u ∈ s.uploads.rows,
      (((restarted (arrives u.client) u).phase.settled ||
          (restarted (arrives u.client) u).phase.working) = true →
        s.server.sync.data.holdsContent u.connection.vaultId (u.hash P) = true) ∧
      ((restarted (arrives u.client) u).phase.settled = true →
        s.server.sync.data.blobVerified (u.hash P) = true)))
  | .upload _ .put | .upload _ .complete | .upload _ .head | .upload _ .get | .upload _ .save |
    .upload _ (.send _) | .blobUploadInit .. | .blobUploadComplete _ | .call _ => isTrue trivial

/-- `randomUUID()` gives ids that no conflict has. -/
def FreshUuid (s : UploadServer D) : UploadEvent → Prop
  | .upload _ (.process _ uuid) => s.server.sync.data.getConflict uuid.1 = none
  | .fileOp _ _ uuid _ => s.server.sync.data.getConflict uuid.1 = none
  | .call event => FreshConflictId s.server.sync.data event
  | _ => True

instance (s : UploadServer D) : (e : UploadEvent) → Decidable (FreshUuid s e)
  | .upload _ (.process _ uuid) | .fileOp _ _ uuid _ =>
    inferInstanceAs (Decidable (s.server.sync.data.getConflict uuid.1 = none))
  | .call event => inferInstanceAs (Decidable (FreshConflictId s.server.sync.data event))
  | .upload _ (.start _ _) | .upload _ .announce | .upload _ .put | .upload _ .complete |
    .upload _ .head | .upload _ .get | .upload _ .save | .upload _ (.send _) |
    .blobUploadInit .. | .blobUploadComplete _ | .putObject .. | .resume .. | .restart _ =>
    isTrue trivial

/-! ### The invariant -/

/-- What the server has for an upload. -/
structure OnTrack (s : UploadServer D) (u : Uploading) : Prop where
  valid : u.phase ≠ .over → isValidContentHash (u.hash P) = true
  available : (u.phase.settled || u.phase.working) = true →
    s.server.available u.connection.vaultId (u.hash P) = true
  row : (u.phase.settled || u.phase.working) = true →
    ∃ blob, s.server.sync.data.getBlob (u.hash P) = some blob ∧ blob.size = u.bytes.length ∧
      (u.phase.settled = true → blob.state = .verified)
  object : u.phase.unread = true → ∃ object, s.server.objects.get? (u.hash P) = some object ∧
    object.2.length = u.bytes.length ∧ contentHash P object.2 = u.hash P
  opened : ∀ existing, u.phase = .opening existing → ∀ blob ∈ existing, blob.hash = u.hash P
  completed : ∀ blob, u.phase = .completing blob ∨ u.phase = .measured blob ∨
    u.phase = .hashed blob → blob.hash = u.hash P ∧ blob.size = u.bytes.length
  brings : ∀ op, u.phase = .admitted op → BringsUpload P u op

/-- The invariant of the runs. -/
structure UploadsKept (s : UploadServer D) : Prop where
  hashesLast : HashesLast s.server.sync.data
  logAcks : LogAcks s.server.sync.data
  onTrack : ∀ u ∈ s.uploads.rows, OnTrack P s u

/-- What a step of others leaves of what the server has for an upload. -/
structure Spares (s t : UploadServer D) (u : Uploading) : Prop where
  available : (u.phase.settled || u.phase.working) = true →
    s.server.available u.connection.vaultId (u.hash P) = true →
    t.server.available u.connection.vaultId (u.hash P) = true
  row : (u.phase.settled || u.phase.working) = true →
    ∀ blob, s.server.sync.data.getBlob (u.hash P) = some blob → blob.size = u.bytes.length →
      (u.phase.settled = true → blob.state = .verified) →
      ∃ blob, t.server.sync.data.getBlob (u.hash P) = some blob ∧ blob.size = u.bytes.length ∧
        (u.phase.settled = true → blob.state = .verified)
  object : u.phase.unread = true → ∀ object, s.server.objects.get? (u.hash P) = some object →
    object.2.length = u.bytes.length → contentHash P object.2 = u.hash P →
    ∃ object, t.server.objects.get? (u.hash P) = some object ∧
      object.2.length = u.bytes.length ∧ contentHash P object.2 = u.hash P

end

section

variable {D : Type} {P : Platform} {s t : UploadServer D} {u : Uploading}

theorem OnTrack.of_spares (h : OnTrack P s u) (hspares : Spares P s t u) : OnTrack P t u where
  valid := h.valid
  available hactive := hspares.available hactive (h.available hactive)
  row hactive := by
    obtain ⟨blob, hget, hsize, hstate⟩ := h.row hactive
    exact hspares.row hactive blob hget hsize hstate
  object hunread := by
    obtain ⟨object, hget, hsize, hhash⟩ := h.object hunread
    exact hspares.object hunread object hget hsize hhash
  opened := h.opened
  completed := h.completed
  brings := h.brings

theorem available_iff {server : SocketServer D} {vaultId hash : String} :
    server.available vaultId hash = true ↔
      server.sync.data.holdsContent vaultId hash = true ∨
        (vaultId, hash) ∈ server.pendingBlobOwners := by
  simp [SocketServer.available]

/-- Where the blobs and the objects stay, the access is what matters. -/
theorem Spares.of_available (hblobs : t.server.sync.data.blobs = s.server.sync.data.blobs)
    (hobjects : t.server.objects = s.server.objects)
    (havailable : (u.phase.settled || u.phase.working) = true →
      s.server.available u.connection.vaultId (u.hash P) = true →
      t.server.available u.connection.vaultId (u.hash P) = true) : Spares P s t u where
  available := havailable
  row _ blob hget hsize hstate := by
    refine ⟨blob, ?_, hsize, hstate⟩
    rwa [Store.getBlob, hblobs]
  object _ object hget hsize hhash := ⟨object, by rwa [hobjects], hsize, hhash⟩

/-- Where more is available, and a row is written that still fits. -/
theorem Spares.of_saveBlob (blob : BlobRecord)
    (hdata : t.server.sync.data = s.server.sync.data.saveBlob blob)
    (hobjects : t.server.objects = s.server.objects)
    (hpending : s.server.pendingBlobOwners ⊆ t.server.pendingBlobOwners)
    (hfits : (u.phase.settled || u.phase.working) = true → u.hash P = blob.hash →
      blob.size = u.bytes.length ∧ (u.phase.settled = true → blob.state = .verified)) :
    Spares P s t u where
  available _ havailable := by
    rw [available_iff] at havailable ⊢
    rw [hdata]
    exact havailable.imp_right fun hmem => hpending hmem
  row hactive current hget hsize hstate := by
    have hget' : t.server.sync.data.getBlob (u.hash P)
        = if blob.hash = u.hash P then some blob
          else s.server.sync.data.getBlob (u.hash P) := by
      rw [hdata]
      exact Table.get?_set _ _ _
    by_cases hhash : blob.hash = u.hash P
    · rw [if_pos hhash] at hget'
      obtain ⟨hblobSize, hblobState⟩ := hfits hactive hhash.symm
      exact ⟨blob, hget', hblobSize, hblobState⟩
    · rw [if_neg hhash, hget] at hget'
      exact ⟨current, hget', hsize, hstate⟩
  object _ object hget hsize hhash := ⟨object, by rwa [hobjects], hsize, hhash⟩

/-! ### Ops -/

/-- Only a new op or a replayed one is acknowledged. -/
theorem accepted_or_replayed {now : Time} {uuid : Uuid} {op : FileOp} {userId : String}
    {data : Store} {result : OpAckResult}
    (h : (process P now uuid op (some userId) data).1 = .ok (.ack result)) :
    (accepted P now uuid op (some userId) data).isSome = true ∨
      (data.getOpById op.opId).isSome = true ∨
      (data.getOpByDeviceSeq op.deviceId op.deviceSeq).isSome = true := by
  have hfailure : ∀ e : Failure, answerFailure op e ≠ .ok (.ack result) := by
    intro e
    cases e <;> simp [answerFailure, reject]
  unfold process at h
  cases hknown : data.getOpById op.opId with
  | some existing => exact Or.inr (Or.inl rfl)
  | none =>
    rw [hknown] at h
    dsimp only at h
    split at h
    · next answer hdevice =>
      rcases checkDevice_answer hdevice with ⟨e, rfl, -⟩ | ⟨-, prior, -, -, hprior, -⟩
      · simp at h
      · exact Or.inr (Or.inr (by rw [hprior]; rfl))
    · next hdevice =>
      split at h
      · exact absurd h (hfailure _)
      · next hvalidate =>
        split at h
        · exact absurd h (hfailure _)
        · next happly =>
          refine Or.inl ?_
          simp [accepted, hknown, hdevice, hvalidate, happly, Except.toOption]

/-- What the handler of an op leaves: its call on the data store, the objects, and all
announcements but that of the op. -/
theorem answerOp_cases (server : SocketServer D) (connection : Connection) (now : Time)
    (uuid : Uuid) (op : FileOp) :
    (server.answerOp P connection now uuid op).2.sync.data
        = serverStep P server.sync.data (.process now uuid op (some connection.userId)) ∧
      (server.answerOp P connection now uuid op).2.objects = server.objects ∧
      ∀ owner ∈ server.pendingBlobOwners,
        owner ∈ (server.answerOp P connection now uuid op).2.pendingBlobOwners ∨
        (∃ result, (process P now uuid op (some connection.userId) server.sync.data).1
            = .ok (.ack result)) ∧
          op.blobRef = some owner.2 ∧ owner.1 = connection.vaultId := by
  have hstep : serverStep P server.sync.data (.process now uuid op (some connection.userId))
      = (process P now uuid op (some connection.userId) server.sync.data).2 := rfl
  rw [hstep]
  unfold SocketServer.answerOp
  rcases process P now uuid op (some connection.userId) server.sync.data with ⟨answer, data⟩
  cases answer with
  | error e => exact ⟨rfl, rfl, fun owner hmem => Or.inl hmem⟩
  | ok result =>
    cases result with
    | reject result => exact ⟨rfl, rfl, fun owner hmem => Or.inl hmem⟩
    | ack result =>
      dsimp only
      by_cases hblob : truthy op.blobRef = true
      · rw [if_pos hblob]
        refine ⟨rfl, rfl, fun owner hmem => ?_⟩
        by_cases howner : owner = (connection.vaultId, op.blobRef.getD "")
        · refine Or.inr ⟨⟨result, rfl⟩, ?_, by rw [howner]⟩
          cases href : op.blobRef with
          | none => simp [href] at hblob
          | some hash => rw [howner, href, Option.getD_some]
        · exact Or.inl (List.mem_filter.mpr ⟨hmem, decide_eq_true howner⟩)
      · rw [if_neg hblob]
        exact ⟨rfl, rfl, fun owner hmem => Or.inl hmem⟩

/-- **An op leaves the other uploads what they need**: an announcement that goes has become a
hash of the vault. -/
theorem spares_answerOp {connection : Connection} {now : Time} {uuid : Uuid} {op : FileOp}
    {waiting : List Uploading} (hkept : HashesLast s.server.sync.data)
    (hfresh : s.server.sync.data.getConflict uuid.1 = none)
    (hvault : op.vaultId = connection.vaultId) (hreplay : ReplayHeld P s waiting connection op)
    (hu : u ∈ waiting)
    (ht : t.server = (s.server.answerOp P connection now uuid op).2) : Spares P s t u := by
  obtain ⟨hdata, hobjects, hpending⟩ := answerOp_cases (P := P) s.server connection now uuid op
  rw [← ht] at hdata hobjects hpending
  have hblobs : t.server.sync.data.blobs = s.server.sync.data.blobs := by
    rw [hdata]
    exact blobs_serverStep (fun blob => by simp)
  have hmono : s.server.sync.data.holdsContent u.connection.vaultId (u.hash P) = true →
      t.server.sync.data.holdsContent u.connection.vaultId (u.hash P) = true := by
    rw [hdata]
    exact holdsContent_serverStep (e := .process now uuid op (some connection.userId)) hfresh hkept
  refine .of_available hblobs hobjects fun hactive havailable => ?_
  rw [available_iff] at havailable ⊢
  rcases havailable with hheld | hmem
  · exact Or.inl (hmono hheld)
  rcases hpending _ hmem with hmem | ⟨⟨result, hack⟩, hblob, hsame⟩
  · exact Or.inr hmem
  · refine Or.inl ?_
    rcases accepted_or_replayed hack with hsome | hreplayed
    · obtain ⟨applied, ha⟩ := Option.isSome_iff_exists.mp hsome
      have hlogged : loggedOp now op applied (s.server.sync.data.nextSeq op.vaultId)
          ∈ t.server.sync.data.ops := by
        rw [hdata, ops_serverStep, loggedEntry, ha]
        exact List.mem_append_right _ List.mem_cons_self
      have hheld := holdsContent_of_op hlogged (Or.inr hblob)
      rwa [show (loggedOp now op applied (s.server.sync.data.nextSeq op.vaultId)).vaultId
        = u.connection.vaultId from hvault.trans hsame.symm] at hheld
    · refine hmono ?_
      rw [show u.connection.vaultId = connection.vaultId from hsame]
      exact hreplay hreplayed u hu hactive hsame hblob

/-- Other calls on the data store leave the uploads what they need. -/
theorem spares_call {e : ServerEvent} (hkept : HashesLast s.server.sync.data)
    (hfresh : FreshConflictId s.server.sync.data e) (hother : ∀ blob, e ≠ .saveBlob blob)
    (ht : t.server = s.server.withData (serverStep P s.server.sync.data e)) : Spares P s t u := by
  refine .of_available ?_ (by rw [ht]; rfl) fun _ havailable => ?_
  · rw [ht]
    exact blobs_serverStep hother
  · rw [available_iff] at havailable ⊢
    rw [ht]
    exact havailable.imp_left (holdsContent_serverStep hfresh hkept)

/-! ### Steps of an upload -/

theorem Spares.refl (s : UploadServer D) (u : Uploading) : Spares P s s u :=
  ⟨fun _ h => h, fun _ blob hget hsize hstate => ⟨blob, hget, hsize, hstate⟩,
    fun _ object hget hsize hhash => ⟨object, hget, hsize, hhash⟩⟩

/-- An upload that is over needs nothing. -/
theorem onTrack_over (s : UploadServer D) (u : Uploading) :
    OnTrack P s { u with phase := .over } := by
  constructor <;> simp [UploadPhase.settled, UploadPhase.working, UploadPhase.unread]

/-- One upload goes on, and the others have what they need. -/
theorem UploadsKept.enter (h : UploadsKept P s) (server : SocketServer D) {phase : UploadPhase}
    (hashesLast : HashesLast server.sync.data) (logAcks : LogAcks server.sync.data)
    (hspares : ∀ other ∈ s.uploads.rows, other.client ≠ u.client →
      Spares P s { s with server } other)
    (hself : OnTrack P { s with server } { u with phase }) :
    UploadsKept P (UploadServer.enter { s with server } u phase) where
  hashesLast := hashesLast
  logAcks := logAcks
  onTrack v hv := by
    -- what an upload has does not depend on the other uploads
    have hsame : ∀ w, OnTrack P { s with server } w →
        OnTrack P (UploadServer.enter { s with server } u phase) w :=
      fun w hw => ⟨hw.valid, hw.available, hw.row, hw.object, hw.opened, hw.completed, hw.brings⟩
    rcases Table.mem_set_iff.mp hv with rfl | ⟨hold, hne⟩
    · exact hsame _ hself
    · exact hsame v ((h.onTrack v hold).of_spares (hspares v hold hne))

/-- The same where nothing changes on the server. -/
theorem UploadsKept.enter_same (h : UploadsKept P s) {phase : UploadPhase}
    (hself : OnTrack P s { u with phase }) : UploadsKept P (s.enter u phase) :=
  UploadsKept.enter h s.server h.hashesLast h.logAcks
    (fun other _ _ => .refl s other) hself

/-- A row of a blob is written. -/
theorem data_saveBlob (h : UploadsKept P s) (blob : BlobRecord) :
    HashesLast (s.server.sync.data.saveBlob blob) ∧ LogAcks (s.server.sync.data.saveBlob blob) :=
  ⟨hashesLast_serverStep (P := P) (e := .saveBlob blob) trivial h.hashesLast,
    logAcks_serverStep (P := P) h.logAcks (.saveBlob blob)⟩

theorem uploadsKept_start (h : UploadsKept P s) {client : ℕ} {connection : Connection}
    {bytes : Bytes}
    (hkeeps : KeepsUploads P s (.upload client (.start connection bytes))) :
    UploadsKept P (startUpload P s client connection bytes) := by
  unfold startUpload initRead
  split
  · exact h
  next existing hread =>
  split at hread
  · simp at hread
  next hvalid =>
  obtain rfl : s.server.sync.data.getBlob (contentHash P bytes) = existing := by simpa using hread
  have hhash : isValidContentHash (contentHash P bytes) = true := by
    unfold validateHashAndSize at hvalid
    split at hvalid
    · simp [deny] at hvalid
    · next hhash => simpa using hhash
  refine UploadsKept.enter_same (u := { client, connection, bytes, phase := .over }) h ?_
  have hverified : ((s.server.sync.data.getBlob (contentHash P bytes)).any
      fun blob => blob.state = .verified) = true →
      ∃ blob, s.server.sync.data.getBlob (contentHash P bytes) = some blob ∧
        blob.state = .verified := by
    intro hany
    cases hget : s.server.sync.data.getBlob (contentHash P bytes) with
    | none => simp [hget] at hany
    | some blob => exact ⟨blob, rfl, by simpa [hget] using hany⟩
  refine ⟨fun _ => hhash, fun hactive => ?_, fun hactive => ?_, ?_, ?_, ?_, ?_⟩
  · obtain ⟨blob, hget, hstate⟩ := hverified
      (by simpa [UploadPhase.settled, UploadPhase.working] using hactive)
    exact (hkeeps blob hget hstate).2
  · obtain ⟨blob, hget, hstate⟩ := hverified
      (by simpa [UploadPhase.settled, UploadPhase.working] using hactive)
    exact ⟨blob, hget, (hkeeps blob hget hstate).1, fun _ => hstate⟩
  · simp [UploadPhase.unread]
  · intro existing hphase blob hblob
    obtain rfl := UploadPhase.opening.inj hphase
    exact Table.key_of_get? hblob
  · simp
  · simp

/-- **The answer to an announced upload**: the client relies on a verified blob, or has the row
made pending and uploads itself. -/
theorem uploadsKept_announce (h : UploadsKept P s) (hu : u ∈ s.uploads.rows)
    {existing : Option BlobRecord} (hphase : u.phase = .opening existing)
    (hkeeps : u.phase.writesRow = true → ∀ other ∈ s.uploads.rows, other.client ≠ u.client →
      other.hash P = u.hash P → other.phase.settled = false ∧
        (other.phase.working = true → other.bytes.length = u.bytes.length)) :
    UploadsKept P (announceUpload P s u existing) := by
  have htrack := h.onTrack u hu
  have hvalid : isValidContentHash (u.hash P) = true := htrack.valid (by simp [hphase])
  unfold announceUpload initWrite
  by_cases hverified : (existing.any fun blob => blob.state = .verified) = true
  · have hsettled : u.phase.settled = true := by rw [hphase]; exact hverified
    have hactive : (u.phase.settled || u.phase.working) = true := by rw [hsettled]; rfl
    rw [if_pos hverified]
    refine h.enter_same ⟨fun _ => hvalid, fun _ => htrack.available hactive, fun _ => ?_, ?_, ?_,
      ?_, ?_⟩
    · obtain ⟨blob, hget, hsize, hstate⟩ := htrack.row hactive
      exact ⟨blob, hget, hsize, fun _ => hstate hsettled⟩
    · simp [UploadPhase.unread]
    · simp
    · simp
    · simp
  rw [if_neg hverified]
  by_cases hsize :
      (existing.getD { hash := u.hash P, size := u.bytes.length, state := .pending }).size
        ≠ u.bytes.length
  · simp only [deny, if_pos hsize]
    exact h.enter_same (onTrack_over s u)
  simp only [deny, if_neg hsize]
  -- the row that is written has the hash of the upload, and its size
  generalize hblob : existing.getD { hash := u.hash P, size := u.bytes.length, state := .pending }
    = blob at hsize
  have hhash : blob.hash = u.hash P := by
    rw [← hblob]
    cases hexisting : existing with
    | none => rfl
    | some read => exact htrack.opened existing hphase read hexisting
  have hothers := hkeeps (by
    rw [hphase, UploadPhase.writesRow, Bool.eq_false_of_not_eq_true hverified]
    rfl)
  obtain ⟨hlast, hacks⟩ := data_saveBlob h { blob with state := .pending }
  refine UploadsKept.enter h _ hlast hacks (fun other hother hne => ?_) ?_
  · refine Spares.of_saveBlob { blob with state := .pending } rfl rfl
      (List.subset_cons_self _ _) fun hactive hsame => ?_
    obtain ⟨hunsettled, hsizes⟩ := hothers other hother hne (hsame.trans hhash)
    rw [hunsettled, Bool.false_or] at hactive
    refine ⟨?_, fun hsettled => ?_⟩
    · rw [hsizes hactive]
      exact not_not.mp hsize
    · rw [hunsettled] at hsettled
      exact absurd hsettled (by decide)
  · refine ⟨fun _ => hvalid, fun _ => ?_, fun _ => ⟨{ blob with state := .pending }, ?_,
      not_not.mp hsize, ?_⟩, ?_, ?_, ?_, ?_⟩
    · exact available_iff.mpr (Or.inr List.mem_cons_self)
    · rw [show Uploading.hash P { u with phase := .announced } = blob.hash from hhash.symm]
      exact Table.get?_set_self s.server.sync.data.blobs { blob with state := .pending }
    · simp [UploadPhase.settled]
    · simp [UploadPhase.unread]
    · simp
    · simp
    · simp

/-- The object is put. -/
theorem uploadsKept_put (h : UploadsKept P s) (hu : u ∈ s.uploads.rows)
    (hphase : u.phase = .announced) : UploadsKept P (advanceUpload P s u .put) := by
  have htrack := h.onTrack u hu
  have hactive : (u.phase.settled || u.phase.working) = true := by rw [hphase]; rfl
  obtain ⟨blob, hget, hsize, -⟩ := htrack.row hactive
  unfold advanceUpload
  rw [hphase]
  refine UploadsKept.enter h _ h.hashesLast h.logAcks (fun other hother hne => ?_) ?_
  · refine ⟨fun _ havailable => havailable,
      fun _ blob hget hsize hstate => ⟨blob, hget, hsize, hstate⟩,
      fun hunread object hobject hlength hhash => ?_⟩
    by_cases hsame : u.hash P = other.hash P
    · -- the row of the blob has the sizes of both uploads
      have hother' : (other.phase.settled || other.phase.working) = true := by
        cases hother' : other.phase <;> simp_all [UploadPhase.unread, UploadPhase.working]
      obtain ⟨blob', hget', hsize', -⟩ := (h.onTrack other hother).row hother'
      rw [← hsame, hget, Option.some.injEq] at hget'
      subst hget'
      refine ⟨(u.hash P, u.bytes), ?_, hsize.symm.trans hsize', hsame⟩
      rw [← hsame]
      exact Table.get?_set_self s.server.objects (u.hash P, u.bytes)
    · refine ⟨object, ?_, hlength, hhash⟩
      rw [← hobject]
      exact Table.get?_set_of_ne hsame
  · refine ⟨fun _ => htrack.valid (by simp [hphase]), fun _ => htrack.available hactive,
      fun _ => ⟨blob, hget, hsize, by simp [UploadPhase.settled]⟩, fun _ => ?_, ?_, ?_, ?_⟩
    · exact ⟨(u.hash P, u.bytes), Table.get?_set_self s.server.objects _, rfl, rfl⟩
    · simp
    · simp
    · simp

/-- The row is read for `blob_upload_complete`. -/
theorem uploadsKept_complete (h : UploadsKept P s) (hu : u ∈ s.uploads.rows)
    (hphase : u.phase = .stored) : UploadsKept P (advanceUpload P s u .complete) := by
  have htrack := h.onTrack u hu
  have hactive : (u.phase.settled || u.phase.working) = true := by rw [hphase]; rfl
  have hvalid := htrack.valid (by simp [hphase])
  obtain ⟨blob, hget, hsize, -⟩ := htrack.row hactive
  have hread : completeRead (u.hash P) s.server.sync.data = .ok blob := by
    simp [completeRead, hvalid, hget]
  unfold advanceUpload
  rw [hphase]
  dsimp only
  rw [hread]
  refine h.enter_same ⟨fun _ => hvalid, fun _ => htrack.available hactive,
    fun _ => ⟨blob, hget, hsize, by simp [UploadPhase.settled]⟩,
    fun _ => htrack.object (by rw [hphase]; rfl), by simp, ?_, by simp⟩
  intro read hread
  obtain rfl : blob = read := by simpa using hread
  exact ⟨Table.key_of_get? hget, hsize⟩

/-- The object has the size and the hash. -/
theorem uploadsKept_check (h : UploadsKept P s) (hu : u ∈ s.uploads.rows) {blob : BlobRecord} :
    (u.phase = .completing blob → UploadsKept P (advanceUpload P s u .head)) ∧
      (u.phase = .measured blob → UploadsKept P (advanceUpload P s u .get)) := by
  have htrack := h.onTrack u hu
  have hnext : ∀ {phase : UploadPhase}, u.phase = .completing blob ∨ u.phase = .measured blob →
      phase = .measured blob ∨ phase = .hashed blob → UploadsKept P (s.enter u phase) := by
    intro phase hphase hnext
    have hactive : (u.phase.settled || u.phase.working) = true := by
      rcases hphase with hphase | hphase <;> rw [hphase] <;> rfl
    obtain ⟨row, hget, hsize, -⟩ := htrack.row hactive
    have hobject := htrack.object (by rcases hphase with hphase | hphase <;> rw [hphase] <;> rfl)
    have hread := htrack.completed blob (by tauto)
    refine h.enter_same ⟨fun _ => htrack.valid ?_, fun _ => htrack.available hactive,
      fun _ => ⟨row, hget, hsize, ?_⟩, fun _ => hobject, ?_, ?_, ?_⟩
    · rcases hphase with hphase | hphase <;> simp [hphase]
    · rcases hnext with rfl | rfl <;> simp [UploadPhase.settled]
    · rcases hnext with rfl | rfl <;> simp
    · intro read hphase
      obtain rfl : blob = read := by rcases hnext with rfl | rfl <;> simpa using hphase
      exact hread
    · rcases hnext with rfl | rfl <;> simp
  constructor
  · intro hphase
    obtain ⟨object, hget, hlength, -⟩ := htrack.object (by rw [hphase]; rfl)
    have hread := htrack.completed blob (Or.inl hphase)
    have hhead : completeHead (u.hash P) blob s.server.objects = .ok () := by
      simp [completeHead, hget, hlength, hread.2]
    unfold advanceUpload
    rw [hphase]
    dsimp only
    rw [hhead]
    exact hnext (Or.inl hphase) (Or.inl rfl)
  · intro hphase
    obtain ⟨object, hget, -, hhash⟩ := htrack.object (by rw [hphase]; rfl)
    have hcheck : completeGet P (u.hash P) s.server.objects = .ok () := by
      simp [completeGet, hget, hhash]
    unfold advanceUpload
    rw [hphase]
    dsimp only
    rw [hcheck]
    exact hnext (Or.inr hphase) (Or.inr rfl)

/-- **The row is verified**, with the size that all uploads of the hash have. -/
theorem uploadsKept_save (h : UploadsKept P s) (hu : u ∈ s.uploads.rows) {blob : BlobRecord}
    (hphase : u.phase = .hashed blob) : UploadsKept P (advanceUpload P s u .save) := by
  have htrack := h.onTrack u hu
  have hactive : (u.phase.settled || u.phase.working) = true := by rw [hphase]; rfl
  obtain ⟨row, hget, hsize, -⟩ := htrack.row hactive
  obtain ⟨hhash, hblobSize⟩ := htrack.completed blob (by tauto)
  obtain ⟨hlast, hacks⟩ := data_saveBlob h (completeSave blob)
  unfold advanceUpload
  rw [hphase]
  refine UploadsKept.enter h _ hlast hacks (fun other hother hne => ?_) ?_
  · refine Spares.of_saveBlob (completeSave blob) rfl rfl (List.Subset.refl _)
      fun hother' hsame => ⟨?_, fun _ => rfl⟩
    obtain ⟨row', hget', hsize', -⟩ := (h.onTrack other hother).row hother'
    rw [show other.hash P = u.hash P from hsame.trans hhash, hget, Option.some.injEq] at hget'
    rw [show (completeSave blob).size = blob.size from rfl, hblobSize, ← hsize, hget', hsize']
  · refine ⟨fun _ => htrack.valid (by simp [hphase]), fun _ => ?_,
      fun _ => ⟨completeSave blob, ?_, hblobSize, fun _ => rfl⟩, by simp [UploadPhase.unread],
      by simp, by simp, by simp⟩
    · exact available_iff.mpr (available_iff.mp (htrack.available hactive))
    · rw [show Uploading.hash P { u with phase := .ready } = (completeSave blob).hash
        from hhash.symm]
      exact Table.get?_set_self s.server.sync.data.blobs (completeSave blob)

/-! ### Ops of uploads -/

/-- The guard lets the op of an upload through. -/
theorem OnTrack.guard (h : OnTrack P s u) (hphase : u.phase = .ready) {op : FileOp}
    (hop : BringsUpload P u op) :
    assertOpContentAccess s.server u.connection op = .ok () := by
  have havailable := h.available (by rw [hphase]; rfl)
  unfold assertOpContentAccess
  rw [hop.inlineText, hop.contentHash, hop.blobRef]
  simp [havailable]

/-- The blob of the op is ready. -/
theorem OnTrack.blobReady (h : OnTrack P s u) {op : FileOp} (hphase : u.phase = .admitted op) :
    BlobReady op s.server.sync.data := by
  have hop := h.brings op hphase
  obtain ⟨blob, hget, hsize, hstate⟩ := h.row (by rw [hphase]; rfl)
  intro _
  rw [hop.blobRef, Option.getD_some]
  exact ⟨blob, hget, hstate (by rw [hphase]; rfl), by rw [hsize, hop.size]⟩

theorem uploadsKept_send (h : UploadsKept P s) (hu : u ∈ s.uploads.rows)
    (hphase : u.phase = .ready) (op : FileOp) :
    UploadsKept P (advanceUpload P s u (.send op)) := by
  have htrack := h.onTrack u hu
  unfold advanceUpload
  rw [hphase]
  dsimp only
  split
  · next hop =>
    rw [htrack.guard hphase hop]
    have hactive : (u.phase.settled || u.phase.working) = true := by rw [hphase]; rfl
    obtain ⟨row, hget, hsize, hstate⟩ := htrack.row hactive
    refine h.enter_same ⟨fun _ => htrack.valid (by simp [hphase]),
      fun _ => htrack.available hactive,
      fun _ => ⟨row, hget, hsize, fun _ => hstate (by rw [hphase]; rfl)⟩,
      by simp [UploadPhase.unread], by simp, by simp, ?_⟩
    intro sent hsent
    obtain rfl := UploadPhase.admitted.inj hsent
    exact ⟨hop.deviceId, hop.vaultId, hop.kind, hop.contentHash, hop.blobRef, hop.size,
      hop.inlineText⟩
  · exact h

theorem uploadsKept_process (h : UploadsKept P s) (hu : u ∈ s.uploads.rows) {op : FileOp}
    (hphase : u.phase = .admitted op) (now : Time) {uuid : Uuid}
    (hfresh : s.server.sync.data.getConflict uuid.1 = none)
    (hkeeps : ReplayHeld P s (s.uploads.rows.filter fun other => other.client ≠ u.client)
      u.connection op) : UploadsKept P (advanceUpload P s u (.process now uuid)) := by
  obtain ⟨hdata, -⟩ := answerOp_cases (P := P) s.server u.connection now uuid op
  have hevent : FreshConflictId s.server.sync.data
      (.process now uuid op (some u.connection.userId)) := hfresh
  unfold advanceUpload
  rw [hphase]
  refine UploadsKept.enter h _ ?_ ?_ (fun other hother hne => ?_) (onTrack_over _ u)
  · rw [hdata]
    exact hashesLast_serverStep hevent h.hashesLast
  · rw [hdata]
    exact logAcks_serverStep h.logAcks _
  · exact spares_answerOp h.hashesLast hfresh ((h.onTrack u hu).brings op hphase).vaultId hkeeps
      (List.mem_filter.mpr ⟨hother, decide_eq_true hne⟩) rfl

/-! ### Other events -/

/-- What others do leaves the uploads as they are. -/
theorem UploadsKept.server (h : UploadsKept P s) (server : SocketServer D)
    (hashesLast : HashesLast server.sync.data) (logAcks : LogAcks server.sync.data)
    (hspares : ∀ u ∈ s.uploads.rows, Spares P s { s with server } u) :
    UploadsKept P { s with server } :=
  ⟨hashesLast, logAcks, fun u hu => (h.onTrack u hu).of_spares (hspares u hu)⟩

theorem uploadsKept_fileOp (h : UploadsKept P s) {connection : Connection} (now : Time)
    {uuid : Uuid} {op : FileOp} (hfresh : s.server.sync.data.getConflict uuid.1 = none)
    (hkeeps : ReplayHeld P s s.uploads.rows connection op) :
    UploadsKept P (uploadStep P s (.fileOp connection now uuid op)) := by
  show UploadsKept P { s with server := (s.server.fileOp P connection now uuid op).2 }
  by_cases hown : op.deviceId = connection.deviceId ∧ op.vaultId = connection.vaultId
  · rw [fileOp_eq P s.server connection now uuid hown.1 hown.2]
    split
    · exact h
    · obtain ⟨hdata, -⟩ := answerOp_cases (P := P) s.server connection now uuid op
      have hevent : FreshConflictId s.server.sync.data
          (.process now uuid op (some connection.userId)) := hfresh
      refine h.server _ ?_ ?_ fun u hu => spares_answerOp h.hashesLast hfresh hown.2 hkeeps hu rfl
      · rw [hdata]
        exact hashesLast_serverStep hevent h.hashesLast
      · rw [hdata]
        exact logAcks_serverStep h.logAcks _
  · have hsame : (s.server.fileOp P connection now uuid op).2 = s.server := by
      unfold SocketServer.fileOp
      rw [if_pos (not_and_or.mp hown)]
    rw [hsame]
    exact h

/-- Another announcement: the row of a verified blob stays, and any other row keeps its size. -/
theorem uploadsKept_blobUploadInit (h : UploadsKept P s) (connection : Connection)
    (hash : String) (size : ℕ) :
    UploadsKept P (uploadStep P s (.blobUploadInit connection hash size)) := by
  show UploadsKept P { s with server := (s.server.blobUploadInit connection hash size).2 }
  unfold SocketServer.blobUploadInit initUpload
  cases validateHashAndSize hash size with
  | error e => exact h
  | ok u =>
    dsimp only
    by_cases hverified : s.server.sync.data.blobVerified hash = true
    · rw [if_pos hverified]
      exact h
    rw [if_neg hverified]
    split
    · next heq =>
      split at heq <;> cases heq
      exact h
    · next heq => split at heq <;> cases heq
    next data heq =>
    split at heq
    · cases heq
    obtain rfl := (Prod.mk.inj heq).2
    generalize hblob : (s.server.sync.data.getBlob hash).getD { hash, size, state := .pending }
      = blob
    have hhash : blob.hash = hash := by
      rw [← hblob]
      cases hget : s.server.sync.data.getBlob hash with
      | none => rfl
      | some read => exact Table.key_of_get? hget
    obtain ⟨hlast, hacks⟩ := data_saveBlob h { blob with state := .pending }
    refine h.server _ hlast hacks fun u hu =>
      Spares.of_saveBlob { blob with state := .pending } rfl rfl
        (List.subset_cons_self _ _) fun hactive hsame => ?_
    obtain ⟨row, hget, hsize, hstate⟩ := (h.onTrack u hu).row hactive
    rw [show u.hash P = hash from hsame.trans hhash] at hget
    obtain rfl : row = blob := by rw [← hblob, hget, Option.getD_some]
    refine ⟨hsize, fun hsettled => absurd ?_ hverified⟩
    simp [Store.blobVerified, hget, hstate hsettled]

theorem uploadsKept_blobUploadComplete (h : UploadsKept P s) (hash : String) :
    UploadsKept P (uploadStep P s (.blobUploadComplete hash)) := by
  show UploadsKept P
    { s with server :=
        s.server.withData (completeUpload P hash s.server.objects s.server.sync.data).2 }
  rw [completeUpload_eq]
  split
  · exact h
  next blob hread =>
  split
  · exact h
  split
  · exact h
  have hget : s.server.sync.data.getBlob hash = some blob := by
    unfold completeRead at hread
    split at hread
    · simp [deny] at hread
    · split at hread
      · simp [deny] at hread
      · next found hfound => rw [hfound, Except.ok.inj hread]
  obtain ⟨hlast, hacks⟩ := data_saveBlob h (completeSave blob)
  refine h.server _ hlast hacks fun u hu =>
    Spares.of_saveBlob (completeSave blob) rfl rfl (List.Subset.refl _)
      fun hactive hsame => ⟨?_, fun _ => rfl⟩
  obtain ⟨row, hrow, hsize, -⟩ := (h.onTrack u hu).row hactive
  have hkey : blob.hash = hash := Table.key_of_get? hget
  rw [show u.hash P = hash from hsame.trans hkey, hget, Option.some.injEq] at hrow
  rw [← hsize, ← hrow]
  rfl

theorem uploadsKept_putObject (h : UploadsKept P s) {hash : String} {bytes : Bytes}
    (hkeeps : KeepsUploads P s (.putObject hash bytes)) :
    UploadsKept P (uploadStep P s (.putObject hash bytes)) := by
  refine UploadsKept.server h { s.server with objects := s.server.objects.set (hash, bytes) }
    h.hashesLast h.logAcks fun u hu => ⟨fun _ havailable => havailable,
      fun _ blob hget hsize hstate => ⟨blob, hget, hsize, hstate⟩,
      fun hunread object hobject hlength hhash => ?_⟩
  by_cases hsame : u.hash P = hash
  · obtain ⟨hbytes, hsize⟩ := hkeeps u hu hunread hsame
    refine ⟨(hash, bytes), ?_, hsize, hbytes.trans hsame.symm⟩
    rw [hsame]
    exact Table.get?_set_self s.server.objects (hash, bytes)
  · refine ⟨object, ?_, hlength, hhash⟩
    rw [← hobject]
    exact Table.get?_set_of_ne (Ne.symm hsame)

theorem uploadsKept_call (h : UploadsKept P s) {e : ServerEvent}
    (hfresh : FreshConflictId s.server.sync.data e) : UploadsKept P (uploadStep P s (.call e)) := by
  by_cases hblob : ∃ blob, e = .saveBlob blob
  · obtain ⟨blob, rfl⟩ := hblob
    exact h
  have hother : ∀ blob, e ≠ .saveBlob blob := fun blob heq => hblob ⟨blob, heq⟩
  have hstep : uploadStep P s (.call e)
      = { s with server := s.server.withData (serverStep P s.server.sync.data e) } := by
    unfold uploadStep
    split <;> simp_all
  rw [hstep]
  exact h.server _ (hashesLast_serverStep hfresh h.hashesLast) (logAcks_serverStep h.logAcks e)
    fun u _ => spares_call h.hashesLast hfresh hother rfl

/-- **A client that goes on** has all that its op needs. -/
theorem uploadsKept_resume (h : UploadsKept P s) {client heir : ℕ}
    (hkeeps : KeepsUploads P s (.resume client heir)) :
    UploadsKept P (resumeUpload s client heir) := by
  unfold resumeUpload
  split
  · next u hget hfree =>
    split
    · exact h
    next hnotOver =>
    obtain ⟨hblob, havailable⟩ := Bool.and_eq_true_iff.mp (hkeeps u hget hnotOver)
    obtain ⟨row, hrow, hverified⟩ := (Option.any_eq_true _ _).mp hblob
    obtain ⟨hstate, hsize⟩ := of_decide_eq_true hverified
    have hvalid := (h.onTrack u (Table.mem_of_get? hget)).valid hnotOver
    exact h.enter_same ⟨fun _ => hvalid, fun _ => havailable,
      fun _ => ⟨row, hrow, hsize, fun _ => hstate⟩, by simp [UploadPhase.unread], by simp,
      by simp, by simp⟩
  · exact h

/-- The uploads that go on after a restart went on before it. -/
theorem restarted_cases (arrives : Bool) (u : Uploading) :
    restarted arrives u = { u with phase := .over } ∨
    ((u.phase.settled || u.phase.working) = true ∧ u.phase ≠ .over) ∧
      (restarted arrives u = { u with phase := .announced } ∨
        u.phase = .stored ∧ restarted arrives u = { u with phase := .stored } ∨
        restarted arrives u = { u with phase := .ready }) := by
  unfold restarted
  cases hphase : u.phase <;> cases arrives <;>
    simp [UploadPhase.settled, UploadPhase.working]

/-- **A restart** forgets the announcements: the vaults of the uploads that go on hold their
hashes. -/
theorem uploadsKept_restart (h : UploadsKept P s) {arrives : ℕ → Bool}
    (hkeeps : KeepsUploads P s (.restart arrives)) :
    UploadsKept P (uploadStep P s (.restart arrives)) := by
  refine ⟨h.hashesLast, h.logAcks, fun v hv => ?_⟩
  obtain ⟨u, hu, rfl⟩ := List.mem_map.mp hv
  obtain ⟨hholds, hverified⟩ := hkeeps u hu
  have htrack := h.onTrack u hu
  rcases restarted_cases (arrives u.client) u with hover | ⟨⟨hactive, hnotOver⟩, hnext⟩
  · rw [hover]
    exact onTrack_over _ u
  obtain ⟨row, hget, hsize, -⟩ := htrack.row hactive
  have hvalid := htrack.valid hnotOver
  have havailable : ∀ phase, restarted (arrives u.client) u = { u with phase } →
      (phase.settled || phase.working) = true →
      (uploadStep P s (.restart arrives)).server.available u.connection.vaultId (u.hash P)
        = true := by
    intro phase hphase hgoesOn
    rw [hphase] at hholds
    exact available_iff.mpr (Or.inl (hholds hgoesOn))
  rcases hnext with hnext | ⟨hstored, hnext⟩ | hnext
  · have havailable := havailable _ hnext rfl
    rw [hnext]
    exact ⟨fun _ => hvalid, fun _ => havailable,
      fun _ => ⟨row, hget, hsize, by simp [UploadPhase.settled]⟩, by simp [UploadPhase.unread],
      by simp, by simp, by simp⟩
  · have havailable := havailable _ hnext rfl
    rw [hnext]
    exact ⟨fun _ => hvalid, fun _ => havailable,
      fun _ => ⟨row, hget, hsize, by simp [UploadPhase.settled]⟩,
      fun _ => htrack.object (by rw [hstored]; rfl), by simp, by simp, by simp⟩
  · have havailable := havailable _ hnext rfl
    have hstate : row.state = .verified := by
      rw [hnext] at hverified
      simpa [Store.blobVerified, hget] using hverified rfl
    rw [hnext]
    exact ⟨fun _ => hvalid, fun _ => havailable, fun _ => ⟨row, hget, hsize, fun _ => hstate⟩,
      by simp [UploadPhase.unread], by simp, by simp, by simp⟩

/-! ### Runs -/

/-- An upload goes on with the step its phase waits for. -/
theorem advanceUpload_cases (s : UploadServer D) (u : Uploading) (step : UploadStep) :
    advanceUpload P s u step = s ∨
    (∃ existing, u.phase = .opening existing ∧ step = .announce) ∨
    (u.phase = .announced ∧ step = .put) ∨ (u.phase = .stored ∧ step = .complete) ∨
    (∃ blob, u.phase = .completing blob ∧ step = .head) ∨
    (∃ blob, u.phase = .measured blob ∧ step = .get) ∨
    (∃ blob, u.phase = .hashed blob ∧ step = .save) ∨
    (∃ op, u.phase = .ready ∧ step = .send op) ∨
    ∃ op now uuid, u.phase = .admitted op ∧ step = .process now uuid := by
  cases hphase : u.phase <;> cases step <;> simp [advanceUpload, hphase]

theorem uploadsKept_advance (h : UploadsKept P s) {client : ℕ} {step : UploadStep}
    (hget : s.uploads.get? client = some u) (hfresh : FreshUuid s (.upload client step))
    (hkeeps : KeepsUploads P s (.upload client step)) :
    UploadsKept P (advanceUpload P s u step) := by
  have hu := Table.mem_of_get? hget
  have hclient : u.client = client := Table.key_of_get? hget
  rcases advanceUpload_cases (P := P) s u step with hsame | ⟨existing, hphase, rfl⟩ |
    ⟨hphase, rfl⟩ | ⟨hphase, rfl⟩ | ⟨blob, hphase, rfl⟩ | ⟨blob, hphase, rfl⟩ |
    ⟨blob, hphase, rfl⟩ | ⟨op, hphase, rfl⟩ | ⟨op, now, uuid, hphase, rfl⟩
  · rwa [hsame]
  · have hstep : advanceUpload P s u .announce = announceUpload P s u existing := by
      unfold advanceUpload
      rw [hphase]
    rw [hstep]
    exact uploadsKept_announce h hu hphase (hclient ▸ hkeeps u hget)
  · exact uploadsKept_put h hu hphase
  · exact uploadsKept_complete h hu hphase
  · exact (uploadsKept_check h hu).1 hphase
  · exact (uploadsKept_check h hu).2 hphase
  · exact uploadsKept_save h hu hphase
  · exact uploadsKept_send h hu hphase op
  · exact uploadsKept_process h hu hphase now hfresh
      (hclient ▸ hkeeps u hget op (by rw [hphase]; rfl))

/-- **A step that meets the condition keeps the invariant.** -/
theorem uploadsKept_uploadStep (h : UploadsKept P s) {e : UploadEvent} (hfresh : FreshUuid s e)
    (hkeeps : KeepsUploads P s e) : UploadsKept P (uploadStep P s e) := by
  cases e with
  | fileOp connection now uuid op => exact uploadsKept_fileOp h now hfresh hkeeps
  | blobUploadInit connection hash size => exact uploadsKept_blobUploadInit h connection hash size
  | blobUploadComplete hash => exact uploadsKept_blobUploadComplete h hash
  | putObject hash bytes => exact uploadsKept_putObject h hkeeps
  | call event => exact uploadsKept_call h hfresh
  | resume client heir => exact uploadsKept_resume h hkeeps
  | restart arrives => exact uploadsKept_restart h hkeeps
  | upload client step =>
    have hadvance : UploadsKept P (match s.uploads.get? client with
        | none => s
        | some u => advanceUpload P s u step) := by
      split
      · exact h
      · next u hget => exact uploadsKept_advance h hget hfresh hkeeps
    cases step with
    | start connection bytes =>
      show UploadsKept P (match (s.uploads.get? client).filter fun u => u.phase ≠ .over with
        | none => startUpload P s client connection bytes
        | some _ => s)
      split
      · exact uploadsKept_start h hkeeps
      · exact h
    | announce | put | complete | head | get | save | send | process => exact hadvance

/-- **No op of an upload is refused** where the invariant holds. -/
theorem not_refused_of_uploadsKept (h : UploadsKept P s) (e : UploadEvent) :
    refused P s e = false := by
  have hany : ∀ {client : ℕ} {p : Uploading → Bool}, (s.uploads.get? client).any p = true →
      ∃ u, s.uploads.get? client = some u ∧ p u = true := by
    intro client p hp
    cases hget : s.uploads.get? client with
    | none => simp [hget] at hp
    | some u => exact ⟨u, rfl, by simpa [hget] using hp⟩
  rw [Bool.eq_false_iff]
  intro hrefused
  unfold refused at hrefused
  split at hrefused
  · obtain ⟨u, hget, hu⟩ := hany hrefused
    obtain ⟨hphase, hop, hguard⟩ := of_decide_eq_true hu
    rw [(h.onTrack u (Table.mem_of_get? hget)).guard hphase hop] at hguard
    exact absurd hguard (by decide)
  · next client now uuid =>
    obtain ⟨u, hget, hu⟩ := hany hrefused
    have htrack := h.onTrack u (Table.mem_of_get? hget)
    split at hu
    · next op hphase =>
      obtain ⟨hwrites, hanswer⟩ := Bool.and_eq_true_iff.mp hu
      rw [← (htrack.brings op hphase).vaultId] at hwrites
      unfold SocketServer.answerOp at hanswer
      split at hanswer
      · simp [refusedAnswer] at hanswer
      · next result data hprocess =>
        have hcodes := not_refused_process h.logAcks hwrites
          (htrack.blobReady hphase) (congrArg Prod.fst hprocess)
        rcases of_decide_eq_true hanswer with hforbidden | hmissing
        · exact hcodes.1 hforbidden
        · exact hcodes.2 hmissing
      · simp [refusedAnswer] at hanswer
    · simp at hu
  · simp at hrefused

/-- **No upload is refused** in a run whose steps all meet the condition. -/
theorem not_refused_of_keepsUploads (hlast : HashesLast s.server.sync.data)
    (hacks : LogAcks s.server.sync.data) (hnone : s.uploads = .empty) {es : List UploadEvent}
    (hfresh : Run.EachStep (uploadStep P) FreshUuid s es)
    (hkeeps : Run.EachStep (uploadStep P) (KeepsUploads P) s es) :
    Run.EachStep (uploadStep P) (fun s e => refused P s e = false) s es := by
  have hstart : UploadsKept P s := by
    refine ⟨hlast, hacks, fun u hu => ?_⟩
    rw [hnone] at hu
    exact absurd hu List.not_mem_nil
  exact Run.eachStep_of_invariant
    (fun _ _ h hstep => uploadsKept_uploadStep h hstep.1 hstep.2)
    (fun _ e h _ => not_refused_of_uploadsKept h e) hstart (hfresh.and hkeeps)

end

/-! ### Two vaults with the same bytes -/

/-- A create of an attachment from what a device has uploaded. -/
def uploadedCreate (connection : Connection) (bytes : Bytes) : FileOp :=
  { opId := connection.deviceId, deviceId := connection.deviceId, deviceSeq := 1,
    fileId := connection.vaultId, vaultId := connection.vaultId, kind := .create,
    type := .attachment, newPath := some "a.bin",
    newContentVV := some (sampleVV connection.deviceId 1),
    contentHash := some (contentHash samplePlatform bytes),
    blobRef := some (contentHash samplePlatform bytes), size := some bytes.length }

/-- Steps of the upload of one client. -/
def uploadSteps (client : ℕ) (steps : List UploadStep) : List UploadEvent :=
  steps.map (.upload client)

/-- Both vaults upload the bytes at the same time, and one of them once more later. -/
def sampleBothUpload : List UploadEvent :=
  let bytes := encodeText "one"
  uploadSteps 1 [.start sampleUploader bytes] ++ uploadSteps 2 [.start sampleReader bytes] ++
  uploadSteps 1 [.announce] ++ uploadSteps 2 [.announce, .put] ++
  uploadSteps 1 [.put, .complete, .head] ++ uploadSteps 2 [.complete] ++
  uploadSteps 1 [.get, .save] ++ uploadSteps 2 [.head, .get, .save] ++
  uploadSteps 1 [.send (uploadedCreate sampleUploader bytes), .process 0 sampleUuid] ++
  uploadSteps 2 [.send (uploadedCreate sampleReader bytes), .process 0 sampleUuid] ++
  -- the first vault uploads them again, the server restarts and the connection breaks once more
  uploadSteps 3 [.start sampleUploader bytes, .announce] ++
  [.restart fun _ => true, .resume 3 4] ++
  uploadSteps 4 [.send (uploadedCreate sampleUploader bytes), .process 0 sampleUuid]

/-- One vault has uploaded the bytes before the other one announces them. -/
def sampleUploadAgain : List UploadEvent :=
  let bytes := encodeText "one"
  uploadSteps 1
    [.start sampleUploader bytes, .announce, .put, .complete, .head, .get, .save,
     .send (uploadedCreate sampleUploader bytes), .process 0 sampleUuid] ++
  uploadSteps 2
    [.start sampleReader bytes, .announce, .send (uploadedCreate sampleReader bytes)]

/-- The server before any upload. -/
def sampleUploads : UploadServer (Finset Write) := { server := sampleSockets }

theorem not_refused_sampleBothUpload :
    Run.EachStep (uploadStep samplePlatform)
      (fun s e => refused samplePlatform s e = false) sampleUploads sampleBothUpload := by
  refine not_refused_of_keepsUploads (fun vaultId hash hheld => ?_) (fun logged hlogged => ?_) rfl
    (by decide +kernel) (by decide +kernel)
  · simp [holdsContent_iff, sampleUploads, sampleSockets, sampleVaults, Store.saveDevice] at hheld
  · exact absurd hlogged List.not_mem_nil

/-- **The second vault is told that the blob exists and may not use it.** -/
theorem refused_sampleUploadAgain :
    ¬ Run.EachStep (uploadStep samplePlatform)
      (fun s e => refused samplePlatform s e = false) sampleUploads sampleUploadAgain := by
  decide +kernel

end ObsidianSync
