import ObsidianSync.Client.ForcePush
import ObsidianSync.Client.Reseed
import ObsidianSync.Client.VaultWatcher

/-!
# The plugin

The plugin sends from three places: the engine, the realtime sessions, and the dialogs in which
the user resolves conflicts.  The room of a file answers only where the client asked for one.

## Main definitions

* `Plugin` — the watcher with the engine, the sessions, the forced ops, and what was sent.
* `PluginEvent`, `pluginStep` — the user, the vault, the server and the timers.
-/

namespace ObsidianSync

open Engine

/-! ### The plugin -/

/-- What the plugin sends. -/
inductive PluginMessage (D : Type)
  | sync (message : ClientMessage)
  | session (fileId : String) (message : YjsMessage D)
  | resolveConflict (conflictId : String) (resolvedHash inlineText : Option String)
      (resolvedVV : VersionVector)

/-- The plugin on a device. -/
structure Plugin (D : Type) where
  /-- The watcher, the engine, and the files that are open in a session. -/
  watcher : VaultWatcher
  /-- The part of the session manager of each file. -/
  yjs : String → YjsSessionManager D := fun _ => {}
  /-- The batches of ops that are being applied. -/
  batches : List Batch := []
  /-- The forced ops that wait for their answers. -/
  forced : List FileOp := []
  sent : List (PluginMessage D) := []

/-- The sides of a conflict. -/
inductive ConflictSide
  | ours
  | theirs
  deriving DecidableEq, Repr

/-- The hash of a side. -/
def ConflictSide.hash (conflict : ConflictRecord) : ConflictSide → Option String
  | .ours => conflict.oursHash
  | .theirs => conflict.theirsHash

/-- `conflictResolvedVV`, for a conflict. -/
def conflictResolvedVV (conflict : ConflictRecord) (deviceId : String) : VersionVector :=
  VersionVector.bump (VersionVector.join (conflict.oursVV.getD VersionVector.emptyVV)
    (conflict.theirsVV.getD VersionVector.emptyVV)) deviceId

namespace Plugin

variable {D : Type} [SemilatticeSup D] [OrderBot D] (p : Plugin D)

/-- The watcher goes on, and what the engine has sent is sent. -/
def withWatcher (w : VaultWatcher) : Plugin D :=
  { p with
    watcher := { w with engine := { w.engine with outgoing := [] } }
    sent := p.sent ++ w.engine.outgoing.map .sync }

/-- The plugin with another engine. -/
def withEngine (e : Engine) : Plugin D := p.withWatcher { p.watcher with engine := e }

/-- The session of a file goes on, and what it has sent is sent. -/
def withSession (fileId : String) (m : YjsSessionManager D) : Plugin D :=
  { p with
    yjs := Function.update p.yjs fileId { m with outgoing := [] }
    watcher := { p.watcher with
      sessions := (p.watcher.sessions.filter fun id => id ≠ fileId) ++
        if m.session.isSome then [fileId] else [] }
    sent := p.sent ++ m.outgoing.map (.session fileId) }

/-- A message is sent. -/
def send (message : PluginMessage D) : Plugin D := { p with sent := p.sent ++ [message] }

/-- `startSyncServices`: sessions are only for plain content. -/
def yjsConfig (crdt : Crdt D) (cfg : ClientConfig) : YjsConfig D :=
  { crdt, canPromote := !cfg.encryptionEnabled }

/-- Whether a room was asked for, by a session or by the engine. -/
def promoted (fileId : String) : Bool :=
  p.sent.any fun message =>
    match message with
    | .session id .promote => id = fileId
    | .sync (.promote id) => id = fileId
    | _ => false

/-- A forced op is sent and waits for its answer. -/
def startForced (P : Platform) (now : Time) (uuid : Uuid) (draft : FileOpDraft) : Plugin D :=
  let forced := pushForced P now uuid draft p.watcher.engine
  { p.withEngine forced.2 with forced := p.forced ++ [forced.1] }

/-- A forced op gets an answer. -/
def answerForced (P : Platform) (now : Time) (place : ℕ) (result : ForcePushOpResult) :
    Plugin D :=
  match p.forced[place]? with
  | none => p
  | some op =>
    { p.withEngine (endForced P now op result p.watcher.engine) with
      forced := p.forced.eraseIdx place }

/-- A batch goes on. -/
def resume (P : Platform) (cfg : ClientConfig) (now : Time) (place : ℕ) : Plugin D :=
  match p.batches[place]? with
  | none => p
  | some batch =>
    let (e, batch', _) := resumeBatch P cfg now batch p.watcher.engine
    { p.withEngine e with batches := p.batches.eraseIdx place ++ batch'.toList }

/-- A message of the server to the engine. -/
def receive (cfg : ClientConfig) (now : Time) (message : ServerMessage) : Plugin D :=
  let (e, batch) := Engine.handleMessage cfg now message p.watcher.engine
  { p.withEngine e with batches := p.batches ++ batch.toList }

/-- `TextMergeModal.resolve`. -/
def resolveText (cfg : ClientConfig) (conflict : ConflictRecord) (text : String) : Plugin D :=
  p.send (.resolveConflict conflict.conflictId none (some text)
    (conflictResolvedVV conflict cfg.deviceId))

/-- `resolveByHash`, with the hash of a side. -/
def resolveByHash (cfg : ClientConfig) (conflict : ConflictRecord) (side : ConflictSide) :
    Plugin D :=
  if !truthy (side.hash conflict) then p
  else
    p.send (.resolveConflict conflict.conflictId (side.hash conflict) none
      (conflictResolvedVV conflict cfg.deviceId))

end Plugin

/-- What happens to the plugin. -/
inductive PluginEvent (D : Type)
  /-- The vault changes, with or without the user. -/
  | write (path : String) (bytes : Bytes)
  | queuePath (path : String)
  | flush (now : Time) (fresh : String → Uuid × Uuid)
  | rename (now : Time) (opId fileId : Uuid) (oldPath newPath : String)
  | delete (now : Time) (opId : Uuid) (path : String)
  | forceContent (now : Time) (uuid : Uuid) (fileId path : String) (type : FileType)
      (dominateVV : VersionVector) (remoteExists : Bool)
  | forceDelete (now : Time) (uuid : Uuid) (fileId : String) (type : FileType)
  | answerForced (now : Time) (place : ℕ) (result : ForcePushOpResult)
  | openFile (fileId : String)
  | leaveFile (fileId : String)
  /-- An edit in a session, or a message of the room. -/
  | session (fileId : String) (event : SessionEvent D)
  | receive (now : Time) (message : ServerMessage)
  | resume (now : Time) (place : ℕ)
  | transport (state : TransportState)
  | resolveText (conflict : ConflictRecord) (text : String)
  | resolveByHash (conflict : ConflictRecord) (side : ConflictSide)

/-- The state of the room, which comes only where one was asked for. -/
def SessionEvent.isRoomState {D : Type} : SessionEvent D → Bool
  | .roomState .. => true
  | _ => false

section

variable {D : Type} [SemilatticeSup D] [OrderBot D]

/-- The plugin after an event. -/
def pluginStep (P : Platform) (crdt : Crdt D) (cfg : ClientConfig) (p : Plugin D) :
    PluginEvent D → Plugin D
  | .write path bytes =>
    p.withEngine { p.watcher.engine with vault := p.watcher.engine.vault.writeBytes path bytes }
  | .queuePath path => p.withWatcher (p.watcher.queuePath P cfg path)
  | .flush now fresh => p.withWatcher (p.watcher.flush P cfg now fresh)
  | .rename now opId fileId oldPath newPath =>
    p.withWatcher (p.watcher.handleRename P cfg now opId fileId oldPath newPath)
  | .delete now opId path => p.withWatcher (p.watcher.handleDelete P cfg now opId path)
  | .forceContent now uuid fileId path type dominateVV remoteExists =>
    match makeForcedContentOp P cfg p.watcher.engine fileId path type dominateVV remoteExists with
    | none => p
    | some draft => p.startForced P now uuid draft
  | .forceDelete now uuid fileId type =>
    let (draft, e) := makeDeleteOp cfg fileId type p.watcher.engine
    (p.withEngine e).startForced P now uuid draft
  | .answerForced now place result => p.answerForced P now place result
  | .openFile fileId =>
    p.withSession fileId ((p.yjs fileId).openFile (Plugin.yjsConfig crdt cfg))
  | .leaveFile fileId => p.withSession fileId (p.yjs fileId).leaveFile
  | .session fileId event =>
    if event.isRoomState && !p.promoted fileId then p
    else p.withSession fileId (sessionStep (Plugin.yjsConfig crdt cfg) (p.yjs fileId) event)
  | .receive now message => p.receive cfg now message
  | .resume now place => p.resume P cfg now place
  | .transport state => p.withEngine (handleTransportState cfg state p.watcher.engine)
  | .resolveText conflict text => p.resolveText cfg conflict text
  | .resolveByHash conflict side => p.resolveByHash cfg conflict side

end

end ObsidianSync
