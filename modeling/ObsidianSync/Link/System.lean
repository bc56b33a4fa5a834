import ObsidianSync.Client.Messages
import ObsidianSync.Lib.Run
import ObsidianSync.Server.System

/-!
# A client and the server

One client on an ordered channel to the server, while other devices and rooms
change the store.  The server drops what it sends to a socket with too much in
its buffer; it answers the messages of a connection one after the other, but
commits and broadcasts of other connections fall anywhere between.

## Main definitions

* `Link` — both sides, the messages in flight, and what has been applied,
  acknowledged, saved and answered so far.
* `LinkEvent`, `linkStep` — what can happen.
* `Link.initial` — a fresh client before it connects.
-/

namespace ObsidianSync

open Engine

/-- A client, the server, and what is between them.  The last four fields record
the past; nothing reads them. -/
structure Link where
  store : Store
  engine : Engine
  socketOpen : Bool := false
  /-- The server has accepted the hello of this connection. -/
  joined : Bool := false
  /-- Messages to the server. -/
  up : List ClientMessage := []
  /-- Messages to the client. -/
  down : List ServerMessage := []
  /-- The batches of ops the client is applying. -/
  batches : List Batch := []
  /-- Committed ops of others that the server is about to send to the client. -/
  broadcasts : List AppliedOp := []
  /-- The hashes of blobs uploaded for the vault and not used yet. -/
  pendingBlobOwners : List String := []
  /-- The vault sequences `applyOps` has applied. -/
  applied : List ℕ := []
  /-- The vault sequences of the acks the client has handled. -/
  acked : List ℕ := []
  /-- What the user has saved, by path. -/
  saves : List (String × Bytes) := []
  /-- What the server has answered to ops. -/
  answers : List OpApplyResult := []

namespace Link

/-- The client goes on as `e`; what it sends waits for the socket. -/
def withEngine (l : Link) (e : Engine) : Link :=
  if l.socketOpen then
    { l with engine := { e with outgoing := [] }, up := l.up ++ e.outgoing }
  else { l with engine := e }

/-- A batch that waits joins the others. -/
def addBatch (l : Link) (batch : Option Batch) : Link :=
  { l with batches := l.batches ++ batch.toList }

/-! ### The server -/

/-- `assertOpContentAccess`: the vault has the content, or it was uploaded here. -/
def mayUseContent (vaultId : String) (op : FileOp) (l : Link) : Bool :=
  if op.inlineText.isSome || !truthy op.contentHash then true
  else
    let hash := (op.blobRef.or op.contentHash).getD ""
    l.store.hasContentForVault vaultId hash || l.pendingBlobOwners.contains hash

/-- An op is no longer waiting for its blob. -/
def claimBlob (op : FileOp) (l : Link) : Link :=
  if truthy op.blobRef then
    { l with
      pendingBlobOwners := l.pendingBlobOwners.filter fun hash => some hash ≠ op.blobRef }
  else l

/-- What `file_op` answers and does. -/
def receiveFileOp (P : Platform) (cfg : ClientConfig) (userId : String) (now : Time) (uuid : Uuid)
    (op : FileOp) (l : Link) : ServerMessage × Link :=
  if op.deviceId ≠ cfg.deviceId ∨ op.vaultId ≠ cfg.vaultId then
    (.error .UNAUTHENTICATED "Operation device/vault must match the authenticated connection", l)
  else if !mayUseContent cfg.vaultId op l then
    (.error .FORBIDDEN "Content hash is not available for this vault", l)
  else
    match process P now uuid op (some userId) l.store with
    | (.error e, store) => (.error .INTERNAL e.message, { l with store })
    | (.ok (.reject r), store) =>
      (.reject r.opId r.code r.message r.details,
        { l with store, answers := l.answers ++ [.reject r] })
    | (.ok (.ack r), store) =>
      (.opAck r.opId r.vaultSeq r.resultingClocks r.conflictId,
        claimBlob op { l with store, answers := l.answers ++ [.ack r] })

/-- The ops after a sequence, a page at most. -/
def opsPage (vaultId : String) (sinceSeq : ℕ) (l : Link) : ServerMessage :=
  let ops := l.store.listOps vaultId sinceSeq 1000
  .ops ops (ops.length = 1000)

/-- What `hello` answers; the token is that of the device. -/
def receiveHello (cfg : ClientConfig) (userId : String) (lastSeq : ℕ) (l : Link) :
    List ServerMessage × Link :=
  if l.joined then ([.error .BAD_REQUEST "hello already received"], l)
  else
    match l.store.getDevice cfg.deviceId with
    | none => ([.error .DEVICE_REVOKED "Device is not valid"], l)
    | some device =>
      if device.revoked || device.userId ≠ userId || device.vaultId ≠ cfg.vaultId then
        ([.error .DEVICE_REVOKED "Device is not valid"], l)
      else if (l.store.getRole cfg.vaultId userId).isNone then
        ([.error .FORBIDDEN "No vault access"], l)
      else
        let ops := l.store.listOps cfg.vaultId lastSeq 1000
        (.welcome (l.store.currentSeq cfg.vaultId) ::
            (if ops.isEmpty then [] else [.ops ops (ops.length = 1000)]),
          { l with joined := true })

/-- What the server answers to a message and does.  Promotions are left to the
rooms. -/
def answer (P : Platform) (cfg : ClientConfig) (userId : String) (now : Time) (uuid : Uuid)
    (message : ClientMessage) (l : Link) : List ServerMessage × Link :=
  match message with
  | .hello _ _ lastSeq => receiveHello cfg userId lastSeq l
  | .fileOp op =>
    if !l.joined then ([.error .UNAUTHENTICATED "hello required first"], l)
    else
      let (message, l) := receiveFileOp P cfg userId now uuid op l
      ([message], l)
  | .getOps sinceSeq =>
    if !l.joined then ([.error .UNAUTHENTICATED "hello required first"], l)
    else ([opsPage cfg.vaultId sinceSeq l], l)
  | .promote _ =>
    if !l.joined then ([.error .UNAUTHENTICATED "hello required first"], l) else ([], l)

/-- The server takes its next message; `delivers` says which answers the socket
has room for. -/
def serverReceive (P : Platform) (cfg : ClientConfig) (userId : String) (now : Time) (uuid : Uuid)
    (delivers : ServerMessage → Bool) (l : Link) : Link :=
  match l.up with
  | [] => l
  | message :: up =>
    let (answers, l) := answer P cfg userId now uuid message { l with up }
    { l with down := l.down ++ answers.filter delivers }

/-! ### The client -/

/-- The acks among the messages. -/
def ackedSeq : ServerMessage → List ℕ
  | .opAck _ vaultSeq _ _ => [vaultSeq]
  | _ => []

/-- The client takes its next message. -/
def clientReceive (cfg : ClientConfig) (now : Time) (l : Link) : Link :=
  match l.down with
  | [] => l
  | message :: down =>
    let (e, batch) := handleMessage cfg now message l.engine
    addBatch (withEngine { l with down, acked := l.acked ++ ackedSeq message } e) batch

/-- The batch at a place goes on. -/
def resume (P : Platform) (cfg : ClientConfig) (now : Time) (place : ℕ) (l : Link) : Link :=
  match l.batches[place]? with
  | none => l
  | some batch =>
    let (e, batch', seq) := resumeBatch P cfg now batch l.engine
    addBatch (withEngine
      { l with batches := l.batches.eraseIdx place, applied := l.applied ++ seq.toList } e) batch'

/-- The user writes a file and the watcher syncs it. -/
def save (P : Platform) (cfg : ClientConfig) (now : Time) (opId fileId : Uuid) (path : String)
    (bytes : Bytes) (l : Link) : Link :=
  withEngine { l with saves := l.saves ++ [(path, bytes)] }
    (syncPath P cfg now opId fileId path
      { l.engine with vault := l.engine.vault.writeBytes path bytes })

/-! ### The connection -/

/-- The socket opens: the hello goes first, then what has waited. -/
def connect (cfg : ClientConfig) (l : Link) : Link :=
  if l.socketOpen || l.engine.paused then l
  else
    let e := handleTransportState cfg .opened
      (handleTransportState cfg .connecting { l.engine with outgoing := [] })
    { l with
      engine := { e with outgoing := [] }, socketOpen := true
      up := e.outgoing ++ l.engine.outgoing }

/-- The socket closes and loses what was in flight. -/
def disconnect (cfg : ClientConfig) (l : Link) : Link :=
  { l with
    engine := handleTransportState cfg .closed l.engine, socketOpen := false, joined := false,
    up := [], down := [] }

/-- An event of others, and what it makes the server broadcast. -/
def remote (P : Platform) (cfg : ClientConfig) (event : ServerEvent) (l : Link) : Link :=
  { l with
    store := serverStep P l.store event
    broadcasts := l.broadcasts ++
      (((loggedEntry P l.store event).toList.filter fun op => op.vaultId = cfg.vaultId).map
        StoredOp.toApplied) }

/-- The server sends one of the ops it is about to, if the client has joined and
the socket has room. -/
def broadcast (place : ℕ) (delivers : Bool) (l : Link) : Link :=
  match l.broadcasts[place]? with
  | none => l
  | some op =>
    let down := if l.socketOpen && l.joined && delivers then l.down ++ [.ops [op] false] else l.down
    { l with broadcasts := l.broadcasts.eraseIdx place, down }

/-- The client uploads a blob; the vault waits for its use unless it was there. -/
def upload (hash : String) (size : ℕ) (l : Link) : Link :=
  let uploaded :=
    { l with
      store := l.store.saveBlob { hash, size, state := .verified }
      pendingBlobOwners := l.pendingBlobOwners ++ [hash] }
  match l.store.getBlob hash with
  | none => uploaded
  | some blob => if blob.state = .verified ∨ blob.size ≠ size then l else uploaded

/-- A client that has not connected yet. -/
def initial (cfg : ClientConfig) (store : Store) : Link where
  store
  engine :=
    { index := { device := { deviceId := cfg.deviceId, vaultId := some cfg.vaultId } }
      outbox := OutboxManager.create cfg.deviceId 1 [] }

end Link

/-! ### Steps -/

/-- What happens at the client, at the server and on the way between them. -/
inductive LinkEvent
  | save (now : Time) (opId fileId : Uuid) (path : String) (bytes : Bytes)
  | rename (now : Time) (opId fileId : Uuid) (oldPath newPath : String)
  | delete (now : Time) (opId : Uuid) (path : String)
  | upload (hash : String) (size : ℕ)
  | serverReceive (now : Time) (uuid : Uuid) (delivers : ServerMessage → Bool)
  | clientReceive (now : Time)
  | resume (now : Time) (place : ℕ)
  | remote (event : ServerEvent)
  | broadcast (place : ℕ) (delivers : Bool)
  | connect
  | disconnect

/-- The link after an event. -/
def linkStep (P : Platform) (cfg : ClientConfig) (userId : String) (l : Link) : LinkEvent → Link
  | .save now opId fileId path bytes => l.save P cfg now opId fileId path bytes
  | .rename now opId fileId oldPath newPath =>
    l.withEngine (handleRename P cfg now opId fileId oldPath newPath l.engine)
  | .delete now opId path => l.withEngine (handleDelete P cfg now opId path l.engine)
  | .upload hash size => l.upload hash size
  | .serverReceive now uuid delivers => l.serverReceive P cfg userId now uuid delivers
  | .clientReceive now => l.clientReceive cfg now
  | .resume now place => l.resume P cfg now place
  | .remote event => l.remote P cfg event
  | .broadcast place delivers => l.broadcast place delivers
  | .connect => l.connect cfg
  | .disconnect => l.disconnect cfg

/-! ### A link to compute with -/

/-- The first device of the sample vault. -/
def sampleClient : ClientConfig := { sampleConfig with deviceId := "d1" }

/-- The device connects. -/
def sampleHandshake : List LinkEvent :=
  [.connect, .serverReceive 1 sampleUuid (fun _ => true), .clientReceive 1]

end ObsidianSync
