import ObsidianSync.Client.Engine

/-!
# Forced ops

A force push sends one op after the other, past the queue, and waits for the answer to each.
An op the server refuses is rolled back, so that its sequence is free again; one that may have
been taken stays as it is.

## Main definitions

* `makeForcedContentOp` — content that dominates what the server has.
* `pushForced` — the op is sent, unless the client is not connected.
* `endForced` — what is done with the answer.
-/

namespace ObsidianSync

/-- Take the last op back, if it is the one with that id. -/
def OutboxManager.rollbackLast (m : OutboxManager) (opId : String) : Option OutboxManager :=
  match m.map.get? opId with
  | none => none
  | some entry =>
    if entry.op.deviceSeq ≠ m.nextDeviceSeq - 1 then none
    else some { m with map := m.map.erase opId, nextDeviceSeq := m.nextDeviceSeq - 1 }

namespace Engine

/-- The op for the content of a file that is to win over the server's. -/
def makeForcedContentOp (P : Platform) (cfg : ClientConfig) (e : Engine) (fileId path : String)
    (type : FileType) (dominateVV : VersionVector) (remoteExists : Bool) : Option FileOpDraft :=
  let base := appliedVV (e.index.byFileId fileId)
  -- above the vector the server told, so that the local side wins
  let next := VersionVector.bump (VersionVector.join base dominateVV) cfg.deviceId
  match buildContentPayload P cfg e.vault path with
  | none => none
  | some payload =>
    some
      { vaultId := cfg.vaultId, fileId
        kind := if remoteExists then .update else .create
        type
        newPath := some path
        baseContentVV := some base
        newContentVV := some next
        contentHash := some payload.contentHash
        size := some payload.size
        inlineText := payload.inlineText
        blobRef := payload.blobRef
        contentEncoding := payload.contentEncoding }

/-- Whether the engine may send ops. -/
def isWriteReady (e : Engine) : Bool := e.transportReady && e.handshakeComplete

/-- The server does not send an op back to the device it is from. -/
def applyForcedToIndex (P : Platform) (now : Time) (op : FileOp) (e : Engine) : Engine :=
  if op.kind = .delete then { e with index := e.index.markDeleted op.fileId }
  else
    let entry := e.index.byFileId op.fileId
    let path := (op.newPath.or (entry.map FileIndexEntry.path)).getD ""
    if path = "" || !truthy op.contentHash then e
    else
      let applied := appliedEntry P now op path (op.contentHash.getD "") none
        (entry.bind FileIndexEntry.pathClock)
      { e with index := e.index.upsertFile applied }

/-- The end of `pushForced`, with the answer the op got. -/
def endForced (P : Platform) (now : Time) (op : FileOp) (result : ForcePushOpResult)
    (e : Engine) : Engine :=
  let e :=
    if result.ok then applyForcedToIndex P now op e
    else if result.consumed then e
    else
      match e.outbox.rollbackLast op.opId with
      | some outbox => { e with outbox }
      | none =>
        { e with outbox := e.outbox.reject now op.opId (result.message.getD "rejected") true }
  persistOutbox e

/-- `pushForced`, up to the answer. -/
def pushForced (P : Platform) (now : Time) (uuid : Uuid) (draft : FileOpDraft) (e : Engine) :
    FileOp × Engine :=
  let (op, outbox) := e.outbox.enqueue now uuid draft
  let e := persistOutbox { e with outbox }
  if !isWriteReady e then
    (op, endForced P now op { ok := false, message := some "transport not connected" } e)
  else
    let e :=
      { e with
        forceWaiters := e.forceWaiters ++ [op.opId]
        outbox := e.outbox.markInflight now op.opId }
    (op, e.send (.fileOp op))

/-- The wait for an answer times out: the server may have taken the op. -/
def forcedTimeout : ForcePushOpResult :=
  { ok := false, consumed := true,
    message := some "timed out waiting for server acknowledgement" }

end Engine

end ObsidianSync
