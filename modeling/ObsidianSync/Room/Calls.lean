import ObsidianSync.Room.Spec

/-!
# The store calls of the room manager

A call of the room manager is a sequence of calls on its stores, with changes to the
room in memory between them.  A store call that throws has done nothing, and the call
it belongs to ends there: the calls before it have taken effect, and the room in memory
is as it was when the failing call was made.

## Main definitions

* `StoreCall` — a call on the data store or on the room store.
* `storeCalls` — the store calls of a room event, each with the room in memory when it
  is made.
* `RoomEvent.room` — the room after an event.
* `Room.cutAt` — the room when a store call of an event throws.
* `faultStep` — the server where store calls may throw.

## Main results

* `ran_storeCalls` — the store calls of an event, made one after the other, are what
  the event does.
* `faultStep_of_finds` — what an event leaves of which a store call throws.
-/

namespace ObsidianSync

/-- A call on a store.  The bookkeeping of the row is a read and a write, of which the
read does nothing. -/
inductive StoreCall (D : Type)
  | getRole
  | getContent (hash : String)
  | process (now : Time) (uuid : Uuid) (op : FileOp)
  | saveRow (activeUntil : Option Time)
  | clearRow
  | saveRoom (room : PersistedYjsRoom D)
  | appendUpdate (update : StoredYjsUpdate D)
  | saveSnapshot (version : YjsSnapshotVersion D)
  | deleteUpdatesThrough (roomEpoch seq : ℕ)

section

variable {D : Type} [SemilatticeSup D] [OrderBot D] (cfg : RoomConfig D)

/-- The data store after a call. -/
def StoreCall.runData (data : Store) : StoreCall D → Store
  | .process now uuid op => (ObsidianSync.process cfg.platform now uuid op none data).2
  | .saveRow activeUntil => setActiveUntil cfg.vaultId cfg.fileId activeUntil data
  | .clearRow => clearActiveUntil cfg.vaultId cfg.fileId data
  | .getRole | .getContent _ | .saveRoom _ | .appendUpdate _ | .saveSnapshot _
  | .deleteUpdatesThrough .. => data

omit [SemilatticeSup D] [OrderBot D] in
/-- The room store after a call. -/
def StoreCall.runRoomStore (store : YjsRoomStore D) : StoreCall D → YjsRoomStore D
  | .saveRoom room => store.saveRoom room
  | .appendUpdate update => store.appendUpdate update
  | .saveSnapshot version => store.saveSnapshot version
  | .deleteUpdatesThrough roomEpoch seq => store.deleteUpdatesThrough roomEpoch seq
  | .getRole | .getContent _ | .process .. | .saveRow _ | .clearRow => store

/-- Store calls, each with the room in memory when it is made. -/
abbrev StoreCalls (D : Type) := List (StoreCall D × RuntimeRoom D)

/-- The room after store calls, with what is in memory then. -/
def Room.ran (r : Room D) (calls : StoreCalls D) (runtime : RuntimeRoom D) : Room D :=
  { data := calls.foldl (fun data call => call.1.runData cfg data) r.data
    roomStore := calls.foldl (fun store call => call.1.runRoomStore store) r.roomStore
    runtime }

/-! ### The calls of each method -/

/-- The calls of `saveRuntime`. -/
def saveRuntimeCalls (runtime : RuntimeRoom D) : StoreCalls D :=
  let persisted := runtime.persisted
  [(.saveRoom persisted, runtime),
   (.saveRow (if persisted.active then persisted.leaseUntil else none), runtime)]

/-- The call of `captureSnapshot`. -/
def snapshotCall (runtime : RuntimeRoom D) (now : Time) (seq : ℕ) (reason : SnapshotHistoryReason)
    (deviceId : Option String := none) (userId : Option String := none) : StoreCall D :=
  .saveSnapshot
    { roomEpoch := runtime.persisted.epoch, seq, createdAt := now, reason, deviceId, userId,
      snapshot := runtime.doc }

namespace Room

variable (r : Room D)

/-- The calls of `activate`.  The document is a new one before the text of the note is
read. -/
def activateCalls (now : Time) (clientID : ℕ) (file : StoredFile) (deviceId : String) :
    StoreCalls D :=
  let runtime := (r.activate cfg now clientID file deviceId).runtime
  let read :=
    if r.runtime.persisted.snapshot.isNone && truthy file.contentHash then
      [(.getContent (file.contentHash.getD ""), { r.runtime with doc := ⊥ })]
    else []
  read ++ saveRuntimeCalls runtime ++
    [(snapshotCall runtime now 0 .activation (some deviceId), runtime)]

/-- The calls at the end of `promote`. -/
def joinCalls (now : Time) (deviceId : String) : StoreCalls D :=
  let extended := r.extendLease cfg now deviceId
  saveRuntimeCalls extended.runtime ++ [(.getRole, (extended.welcomeBack deviceId).runtime)]

/-- The store calls of `promote`. -/
def promoteCalls (now : Time) (clientID : ℕ) (deviceId userId : String) : StoreCalls D :=
  match requireRole cfg.vaultId deviceId userId true r.data with
  | .error _ => []
  | .ok _ =>
    match requiredLiveFile cfg.vaultId cfg.fileId r.data with
    | .error _ => []
    | .ok file =>
      if file.contentEncoding.isSome then []
      else if r.activates then
        r.activateCalls cfg now clientID file deviceId ++
          (r.activate cfg now clientID file deviceId).joinCalls cfg now deviceId
      else r.joinCalls cfg now deviceId

/-- The calls of `handleUpdate` after its checks. -/
def acceptUpdateCalls (now : Time) (participant : Participant) (userId : String) (update : D) :
    StoreCalls D :=
  let persisted := r.runtime.persisted
  let seq := persisted.nextSeq
  let merged : RuntimeRoom D :=
    { r.runtime with
      doc := r.runtime.doc ⊔ update
      persisted := { persisted with
        nextSeq := seq + 1
        leaseOwner := persisted.leaseOwner.or (some participant.deviceId)
        leaseUntil := some (now + cfg.options.leaseMs) } }
  let cadence : Bool :=
    cfg.options.snapshotEveryUpdates > 0 ∧ seq % cfg.options.snapshotEveryUpdates = 0
  let captured : RuntimeRoom D :=
    if cadence then
      { merged with persisted := { merged.persisted with
          snapshot := some merged.doc, compactedThroughSeq := seq } }
    else merged
  (.appendUpdate
      { roomEpoch := persisted.epoch, seq, deviceId := participant.deviceId, update,
        createdAt := now }, r.runtime) ::
    (if cadence then
      [(snapshotCall merged now seq .cadence (some participant.deviceId) (some userId), merged)]
    else []) ++ saveRuntimeCalls captured

/-- The store calls of `handleUpdate`. -/
def handleUpdateCalls (now : Time) (deviceId userId : String) (roomEpoch : ℕ) (update : D) :
    StoreCalls D :=
  match requireRole cfg.vaultId deviceId userId true r.data with
  | .error _ => []
  | .ok _ =>
    if cfg.updateBytes update > maxUpdateBytes then []
    else
      match r.rejectIfStale roomEpoch deviceId with
      | some _ => []
      | none =>
        match r.requireParticipant deviceId with
        | .error _ => []
        | .ok participant =>
          if !participant.role.canWrite then []
          else
            let (participant, exceeded) := checkRateLimit cfg now participant
            if exceeded then []
            else (r.withParticipant participant).acceptUpdateCalls cfg now participant userId update

/-- The store calls of `heartbeat`. -/
def heartbeatCalls (now : Time) (deviceId : String) (roomEpoch : ℕ) : StoreCalls D :=
  match r.rejectIfStale roomEpoch deviceId with
  | some _ => []
  | none =>
    match r.requireParticipant deviceId with
    | .error _ => []
    | .ok _ =>
      saveRuntimeCalls (r.withPersisted
        { r.runtime.persisted with leaseUntil := some (now + cfg.options.leaseMs) }).runtime

/-- The store calls of `demoteLocked`. -/
def demoteLockedCalls (now : Time) (uuid : Uuid) : StoreCalls D :=
  if !r.runtime.persisted.active then []
  else
    let op := r.flushOp cfg
    (.process now uuid op, r.runtime) ::
      match (process cfg.platform now uuid op none r.data).1 with
      | .ok (.ack _) =>
        let captured := (r.captureSnapshot now (r.runtime.persisted.nextSeq - 1) .demote
          r.runtime.persisted.leaseOwner).runtime
        let inactive : RuntimeRoom D :=
          { captured with persisted := { captured.persisted with
              active := false, leaseOwner := none, leaseUntil := none } }
        (snapshotCall r.runtime now (r.runtime.persisted.nextSeq - 1) .demote
            r.runtime.persisted.leaseOwner, r.runtime) ::
          saveRuntimeCalls inactive ++ [(.clearRow, r.closed inactive.persisted)]
      | _ => []

/-- Whether a call of `demote` reaches `demoteLocked`. -/
def demotes (roomEpoch : Option ℕ) : Bool :=
  roomEpoch.all fun epoch => r.runtime.persisted.epoch = epoch

/-- Whether the timer closes the room. -/
def timerDemotes : Bool :=
  r.runtime.participants.rows.isEmpty && r.runtime.persisted.active

/-- Whether `sweepExpired` closes the room. -/
def expired (now : Time) : Bool :=
  r.runtime.persisted.active && r.runtime.participants.rows.isEmpty &&
    r.runtime.persisted.leaseUntil.any fun leaseUntil => leaseUntil ≤ now

/-- The store calls of `closeDeleted`. -/
def closeDeletedCalls : StoreCalls D :=
  if r.runtime.persisted.active then
    let inactive : RuntimeRoom D :=
      { r.runtime with persisted := { r.runtime.persisted with
          active := false, leaseOwner := none, leaseUntil := none } }
    saveRuntimeCalls inactive ++ [(.clearRow, r.closed inactive.persisted)]
  else []

/-- The store calls of `compact`. -/
def compactCalls (now : Time) (throughSeq : Option ℕ) : StoreCalls D :=
  let seq := throughSeq.getD (r.runtime.persisted.nextSeq - 1)
  let captured := (r.captureSnapshot now seq .compact).runtime
  (snapshotCall r.runtime now seq .compact, r.runtime) ::
    (.deleteUpdatesThrough r.runtime.persisted.epoch seq, captured) :: saveRuntimeCalls captured

/-- The calls of `restoreHistoryVersion` under the lock. -/
def replaceTextCalls (now : Time) (clientID : ℕ) (deviceId userId text : String) : StoreCalls D :=
  let persisted := r.runtime.persisted
  let nextDoc := ⊥ ⊔ r.runtime.doc
  let nextDoc := nextDoc ⊔ cfg.crdt.change clientID textName text nextDoc
  let update := cfg.crdt.diff nextDoc r.runtime.doc
  let seq := persisted.nextSeq
  let merged : RuntimeRoom D :=
    { r.runtime with
      doc := r.runtime.doc ⊔ update, persisted := { persisted with nextSeq := seq + 1 } }
  let captured : RuntimeRoom D :=
    { merged with persisted := { merged.persisted with
        snapshot := some merged.doc, compactedThroughSeq := seq } }
  (.appendUpdate { roomEpoch := persisted.epoch, seq, deviceId, update, createdAt := now },
      r.runtime) ::
    (snapshotCall merged now seq .restore (some deviceId) (some userId), merged) ::
    saveRuntimeCalls captured

/-- The store calls of `restoreHistoryVersion`. -/
def restoreHistoryVersionCalls (now : Time) (uuid : Uuid) (clientID : ℕ)
    (deviceId userId : String) (versionId : ℕ) (requestId : String) : StoreCalls D :=
  match requireRole cfg.vaultId deviceId userId true r.data with
  | .error _ => []
  | .ok _ =>
    match requiredLiveFile cfg.vaultId cfg.fileId r.data with
    | .error _ => []
    | .ok file =>
      match r.roomStore.getSnapshotVersion versionId with
      | none => []
      | some version =>
        let text := textFromSnapshot cfg version.snapshot
        let op := restoreOp cfg file text requestId
        (.process now uuid op, r.runtime) ::
          match (process cfg.platform now uuid op none r.data).1 with
          | .ok (.ack _) => r.replaceTextCalls cfg now clientID deviceId userId text
          | _ => []

end Room

/-! ### Events -/

/-- The store calls of an event. -/
def storeCalls (r : Room D) : RoomEvent D → StoreCalls D
  | .promote now clientID deviceId userId _ => r.promoteCalls cfg now clientID deviceId userId
  | .handleUpdate now deviceId userId roomEpoch _ update =>
    r.handleUpdateCalls cfg now deviceId userId roomEpoch update
  | .heartbeat now deviceId roomEpoch => r.heartbeatCalls cfg now deviceId roomEpoch
  | .demote now uuid _ roomEpoch _ =>
    if r.demotes roomEpoch then r.demoteLockedCalls cfg now uuid else []
  | .closingTimer now uuid => if r.timerDemotes then r.demoteLockedCalls cfg now uuid else []
  | .sweepExpired now uuid => if r.expired now then r.demoteLockedCalls cfg now uuid else []
  | .closeAll now uuid _ => r.demoteLockedCalls cfg now uuid
  | .closeDeleted => r.closeDeletedCalls
  | .compact now throughSeq => r.compactCalls now throughSeq
  | .restoreHistoryVersion now uuid clientID deviceId userId versionId requestId =>
    r.restoreHistoryVersionCalls cfg now uuid clientID deviceId userId versionId requestId
  | .layer1 _ | .handleSync .. | .leave .. | .disconnect _ | .restart => []

/-- The room after an event. -/
def RoomEvent.room (r : Room D) : RoomEvent D → Room D
  | .promote now clientID deviceId userId connection =>
    (r.promote cfg now clientID deviceId userId connection).room
  | .handleUpdate now deviceId userId roomEpoch updateId update =>
    (r.handleUpdate cfg ready now deviceId userId roomEpoch updateId update).room
  | .handleSync deviceId roomEpoch stateVector =>
    (r.handleSync cfg deviceId roomEpoch stateVector).room
  | .heartbeat now deviceId roomEpoch => (r.heartbeat cfg now deviceId roomEpoch).room
  | .leave deviceId roomEpoch => (r.leave deviceId roomEpoch).room
  | .disconnect deviceId => r.disconnect deviceId
  | .demote now uuid deviceId roomEpoch reason =>
    (r.demote cfg ready now uuid deviceId roomEpoch reason).room
  | .closeDeleted => (r.closeDeleted cfg ready).room
  | .closingTimer now uuid => (r.closingTimer cfg ready now uuid).room
  | .sweepExpired now uuid => (r.sweepExpired cfg ready now uuid).room
  | .closeAll now uuid reason => (r.closeAll cfg ready now uuid reason).room
  | .compact now throughSeq => (r.compact cfg now throughSeq).room
  | .restoreHistoryVersion now uuid clientID deviceId userId versionId requestId =>
    (r.restoreHistoryVersion cfg ready now uuid clientID deviceId userId versionId requestId).room
  | .layer1 _ | .restart => r

/-- The room an event is about: the timers and the shutdown know the rooms in memory,
the calls of the clients load it if it is not there. -/
def RoomEvent.finds (s : RoomServer D) : RoomEvent D → Option (Room D)
  | .disconnect _ | .closingTimer .. | .sweepExpired .. | .closeAll .. =>
    s.runtime.map fun runtime => { data := s.data, roomStore := s.roomStore, runtime }
  | .layer1 _ | .restart => none
  | _ => some s.materialize

/-- The room when the `k`-th store call of an event is made, or after the event if it
does not make that many. -/
def Room.cutAt (r : Room D) (e : RoomEvent D) (k : ℕ) : Room D :=
  let calls := storeCalls cfg r e
  r.ran cfg (calls.take k) ((calls[k]?.map Prod.snd).getD (e.room cfg r).runtime)

omit [SemilatticeSup D] [OrderBot D] in
/-- What becomes of an error: the timer catches it, and the room stays open. -/
def RoomEvent.caught (r : Room D) : RoomEvent D → Room D
  | .closingTimer .. => { r with runtime := { r.runtime with state := .active } }
  | _ => r

/-- The server after an event of which a store call may throw, the one at the given
position. -/
def faultStep (s : RoomServer D) (call : RoomEvent D × Option ℕ) : RoomServer D :=
  match call.1.finds s, call.2 with
  | some r, some k =>
    if k < (storeCalls cfg r call.1).length then (call.1.caught (r.cutAt cfg call.1 k)).server
    else roomStep cfg s call.1
  | _, _ => roomStep cfg s call.1

/-! ### What the calls do -/

variable {cfg}

namespace Room

variable {r : Room D} {now : Time} {deviceId userId : String}

@[simp] theorem ran_nil (r : Room D) : r.ran cfg [] r.runtime = r := rfl

theorem ran_joinCalls {file : StoredFile} {connection : ℕ} :
    r.ran cfg (r.joinCalls cfg now deviceId)
        (r.join cfg now file deviceId userId connection).room.runtime
      = (r.join cfg now file deviceId userId connection).room := by
  rcases r.join_cases with ⟨e, hjoin⟩ | ⟨role, joined, rfl, hjoin⟩ <;> rw [hjoin] <;> rfl

theorem ran_append (calls more : StoreCalls D) (runtime last : RuntimeRoom D) :
    r.ran cfg (calls ++ more) last = (r.ran cfg calls runtime).ran cfg more last := by
  simp [ran]

theorem ran_activateCalls {file : StoredFile} {clientID : ℕ} :
    r.ran cfg (r.activateCalls cfg now clientID file deviceId)
        (r.activate cfg now clientID file deviceId).runtime
      = r.activate cfg now clientID file deviceId := by
  unfold activateCalls
  dsimp only
  split <;> rfl

theorem ran_promoteCalls {clientID connection : ℕ} :
    r.ran cfg (r.promoteCalls cfg now clientID deviceId userId)
        (r.promote cfg now clientID deviceId userId connection).room.runtime
      = (r.promote cfg now clientID deviceId userId connection).room := by
  unfold promoteCalls promote
  cases requireRole cfg.vaultId deviceId userId true r.data with
  | error e => rfl
  | ok role =>
    cases requiredLiveFile cfg.vaultId cfg.fileId r.data with
    | error e => rfl
    | ok file =>
      dsimp only
      by_cases hencoded : file.contentEncoding.isSome = true
      · rw [if_pos hencoded, if_pos hencoded, ran_nil]
      rw [if_neg hencoded, if_neg hencoded]
      cases r.activates with
      | false => exact ran_joinCalls
      | true =>
        simp only [if_true]
        rw [ran_append _ _ (r.activate cfg now clientID file deviceId).runtime, ran_activateCalls]
        exact ran_joinCalls

theorem ran_acceptUpdateCalls {participant : Participant} {updateId : ℕ} {update : D} :
    r.ran cfg (r.acceptUpdateCalls cfg now participant userId update)
        (r.acceptUpdate cfg ready now participant userId updateId update).room.runtime
      = (r.acceptUpdate cfg ready now participant userId updateId update).room := by
  unfold acceptUpdateCalls acceptUpdate
  by_cases hcadence : cfg.options.snapshotEveryUpdates > 0 ∧
      r.runtime.persisted.nextSeq % cfg.options.snapshotEveryUpdates = 0
  · simp only [hcadence, and_self, decide_true, if_true]
    rfl
  · simp only [hcadence, decide_false, Bool.false_eq_true, if_false]
    rfl

theorem ran_handleUpdateCalls {roomEpoch updateId : ℕ} {update : D} :
    r.ran cfg (r.handleUpdateCalls cfg now deviceId userId roomEpoch update)
        (r.handleUpdate cfg ready now deviceId userId roomEpoch updateId update).room.runtime
      = (r.handleUpdate cfg ready now deviceId userId roomEpoch updateId update).room := by
  unfold handleUpdateCalls handleUpdate
  cases requireRole cfg.vaultId deviceId userId true r.data with
  | error e => rfl
  | ok role =>
    dsimp only
    by_cases hsize : cfg.updateBytes update > maxUpdateBytes
    · rw [if_pos hsize, if_pos hsize, ran_nil]
    rw [if_neg hsize, if_neg hsize]
    cases r.rejectIfStale roomEpoch deviceId with
    | some sent => rfl
    | none =>
      cases r.requireParticipant deviceId with
      | error e => rfl
      | ok participant =>
        dsimp only
        split
        · rfl
        split
        · rfl
        exact ran_acceptUpdateCalls (r := r.withParticipant (checkRateLimit cfg now participant).1)

theorem ran_heartbeatCalls {roomEpoch : ℕ} :
    r.ran cfg (r.heartbeatCalls cfg now deviceId roomEpoch)
        (r.heartbeat cfg now deviceId roomEpoch).room.runtime
      = (r.heartbeat cfg now deviceId roomEpoch).room := by
  unfold heartbeatCalls heartbeat
  cases r.rejectIfStale roomEpoch deviceId with
  | some sent => rfl
  | none => cases r.requireParticipant deviceId <;> rfl

theorem ran_demoteLockedCalls {uuid : Uuid} {reason : RoomClosedReason} :
    r.ran cfg (r.demoteLockedCalls cfg now uuid)
        (r.demoteLocked cfg ready now uuid reason).room.runtime
      = (r.demoteLocked cfg ready now uuid reason).room := by
  unfold demoteLockedCalls demoteLocked
  split
  · rfl
  dsimp only
  rcases hprocess : process cfg.platform now uuid (r.flushOp cfg) none r.data with
    ⟨e | result, data⟩
  · simp [ran, StoreCall.runData, StoreCall.runRoomStore, hprocess]
  · cases result with
    | reject answer => simp [ran, StoreCall.runData, StoreCall.runRoomStore, hprocess]
    | ack answer =>
      simp only [ran, List.foldl_cons, StoreCall.runData, StoreCall.runRoomStore, hprocess]
      rfl

theorem ran_closeDeletedCalls :
    r.ran cfg r.closeDeletedCalls (r.closeDeleted cfg ready).room.runtime
      = (r.closeDeleted cfg ready).room := by
  unfold closeDeletedCalls closeDeleted
  cases r.runtime.persisted.active <;> rfl

theorem ran_compactCalls {throughSeq : Option ℕ} :
    r.ran cfg (r.compactCalls now throughSeq) (r.compact cfg now throughSeq).room.runtime
      = (r.compact cfg now throughSeq).room :=
  rfl

theorem ran_restoreHistoryVersionCalls {uuid : Uuid} {clientID versionId : ℕ}
    {requestId : String} :
    r.ran cfg
        (r.restoreHistoryVersionCalls cfg now uuid clientID deviceId userId versionId requestId)
        (r.restoreHistoryVersion cfg ready now uuid clientID deviceId userId versionId
          requestId).room.runtime
      = (r.restoreHistoryVersion cfg ready now uuid clientID deviceId userId versionId
          requestId).room := by
  unfold restoreHistoryVersionCalls restoreHistoryVersion
  cases requireRole cfg.vaultId deviceId userId true r.data with
  | error e => rfl
  | ok role =>
    cases requiredLiveFile cfg.vaultId cfg.fileId r.data with
    | error e => rfl
    | ok file =>
      cases r.roomStore.getSnapshotVersion versionId with
      | none => rfl
      | some version =>
        dsimp only
        rcases hprocess : process cfg.platform now uuid (restoreOp cfg file
          (textFromSnapshot cfg version.snapshot) requestId) none r.data with ⟨e | result, data⟩
        · simp [ran, StoreCall.runData, StoreCall.runRoomStore, hprocess]
        · cases result with
          | reject answer => simp [ran, StoreCall.runData, StoreCall.runRoomStore, hprocess]
          | ack answer =>
            simp only [ran, List.foldl_cons, StoreCall.runData, StoreCall.runRoomStore, hprocess]
            rfl

/-- What becomes of the room in memory does not matter to the stores. -/
theorem ran_of_stores {calls : StoreCalls D} {t u : Room D} (h : r.ran cfg calls u.runtime = u)
    (hdata : t.data = u.data) (hstore : t.roomStore = u.roomStore) :
    r.ran cfg calls t.runtime = t := by
  cases t
  cases hdata
  cases hstore
  rw [← h]
  rfl

theorem ran_removeParticipant (participant : Participant) :
    r.ran cfg [] (r.removeParticipant participant).runtime = r.removeParticipant participant := by
  unfold removeParticipant scheduleClosingIfEmpty
  split <;> rfl

theorem ran_demoteCaught {uuid : Uuid} {reason : RoomClosedReason} {failed : Room D → Room D}
    (hdata : ∀ r, (failed r).data = r.data) (hstore : ∀ r, (failed r).roomStore = r.roomStore) :
    r.ran cfg (r.demoteLockedCalls cfg now uuid)
        (r.demoteCaught cfg ready now uuid reason failed).room.runtime
      = (r.demoteCaught cfg ready now uuid reason failed).room := by
  refine ran_of_stores (ran_demoteLockedCalls : Room.ran cfg _ _ _ =
    (r.demoteLocked cfg ready now uuid reason).room) ?_ ?_
  · unfold demoteCaught
    dsimp only
    split
    · rfl
    · exact hdata _
  · unfold demoteCaught
    dsimp only
    split
    · rfl
    · exact hstore _

end Room

/-- **The store calls of an event are what it does**, made one after the other. -/
theorem ran_storeCalls (r : Room D) (e : RoomEvent D) :
    r.ran cfg (storeCalls cfg r e) (e.room cfg r).runtime = e.room cfg r := by
  -- a call without store calls changes the room in memory only
  cases e with
  | layer1 | restart => rfl
  | promote => exact Room.ran_promoteCalls
  | handleUpdate => exact Room.ran_handleUpdateCalls
  | handleSync deviceId roomEpoch stateVector =>
    show r.ran cfg [] (r.handleSync cfg deviceId roomEpoch stateVector).room.runtime
      = (r.handleSync cfg deviceId roomEpoch stateVector).room
    rw [r.handleSync_room cfg deviceId roomEpoch stateVector, Room.ran_nil]
  | heartbeat => exact Room.ran_heartbeatCalls
  | leave deviceId roomEpoch =>
    show r.ran cfg [] (r.leave deviceId roomEpoch).room.runtime = (r.leave deviceId roomEpoch).room
    rcases Room.leave_cases with hroom | ⟨participant, -, hroom⟩ <;> rw [hroom]
    · exact r.ran_nil
    · exact Room.ran_removeParticipant participant
  | disconnect deviceId =>
    show r.ran cfg [] (r.disconnect deviceId).runtime = r.disconnect deviceId
    rcases Room.disconnect_cases with ⟨-, hroom⟩ | ⟨participant, -, hroom⟩ <;> rw [hroom]
    · exact r.ran_nil
    · exact Room.ran_removeParticipant participant
  | demote now uuid deviceId roomEpoch reason =>
    cases roomEpoch with
    | none => exact Room.ran_demoteLockedCalls
    | some epoch =>
      show r.ran cfg (if r.demotes (some epoch) then r.demoteLockedCalls cfg now uuid else [])
        (r.demote cfg ready now uuid deviceId (some epoch) reason).room.runtime
          = (r.demote cfg ready now uuid deviceId (some epoch) reason).room
      unfold Room.demote Room.demotes
      by_cases hepoch : r.runtime.persisted.epoch = epoch
      · simp only [Option.all_some, hepoch, decide_true, if_true, ne_eq, not_true, if_false]
        exact Room.ran_demoteLockedCalls
      · simp only [Option.all_some, hepoch, decide_false, Bool.false_eq_true, if_false, ne_eq,
          not_false_eq_true, if_true, Room.ran_nil]
  | closeDeleted => exact Room.ran_closeDeletedCalls
  | closingTimer now uuid =>
    show r.ran cfg (if r.timerDemotes then r.demoteLockedCalls cfg now uuid else [])
      (r.closingTimer cfg ready now uuid).room.runtime = (r.closingTimer cfg ready now uuid).room
    unfold Room.closingTimer Room.timerDemotes
    split
    · exact Room.ran_demoteCaught (fun _ => rfl) (fun _ => rfl)
    · exact r.ran_nil
  | sweepExpired now uuid =>
    show r.ran cfg (if r.expired now then r.demoteLockedCalls cfg now uuid else [])
      (r.sweepExpired cfg ready now uuid).room.runtime = (r.sweepExpired cfg ready now uuid).room
    unfold Room.sweepExpired Room.expired
    split
    · exact Room.ran_demoteLockedCalls
    · exact r.ran_nil
  | closeAll now uuid reason =>
    show r.ran cfg (r.demoteLockedCalls cfg now uuid)
      (r.closeAll cfg ready now uuid reason).room.runtime
        = (r.closeAll cfg ready now uuid reason).room
    unfold Room.closeAll
    split
    · next hdormant =>
      simp only [Room.demoteLockedCalls, hdormant, if_true, Room.ran_nil]
    · exact Room.ran_demoteCaught (fun _ => rfl) (fun _ => rfl)
  | compact => exact Room.ran_compactCalls
  | restoreHistoryVersion => exact Room.ran_restoreHistoryVersionCalls

/-! ### Throwing -/

variable {s : RoomServer D} {r : Room D} {e : RoomEvent D}

theorem cutAt_of_length_le {k : ℕ} (h : (storeCalls cfg r e).length ≤ k) :
    r.cutAt cfg e k = e.room cfg r := by
  have hnone : (storeCalls cfg r e)[k]? = none := List.getElem?_eq_none h
  unfold Room.cutAt
  dsimp only
  rw [List.take_of_length_le h, hnone]
  exact ran_storeCalls r e

theorem materialize_of_finds (h : e.finds s = some r) : s.materialize = r := by
  cases e with
  | layer1 | restart => simp [RoomEvent.finds] at h
  | disconnect | closingTimer | sweepExpired | closeAll =>
    obtain ⟨runtime, hruntime, rfl⟩ := Option.map_eq_some_iff.mp h
    simp [RoomServer.materialize, hruntime]
  | promote | handleUpdate | handleSync | heartbeat | leave | demote | closeDeleted | compact
  | restoreHistoryVersion => exact Option.some.inj h

/-- An event is a call on the room it finds. -/
theorem roomStep_of_finds (h : e.finds s = some r) : roomStep cfg s e = (e.room cfg r).server := by
  have hroom := materialize_of_finds h
  cases e with
  | layer1 | restart => simp [RoomEvent.finds] at h
  | disconnect | closingTimer | sweepExpired | closeAll =>
    obtain ⟨runtime, hruntime, rfl⟩ := Option.map_eq_some_iff.mp h
    simp only [roomStep, RoomServer.inMemory, hruntime]
    rfl
  | promote | handleUpdate | handleSync | heartbeat | leave | demote | closeDeleted | compact
  | restoreHistoryVersion =>
    subst hroom
    rfl

/-- What an event leaves of which a store call may throw: all of its store calls have
been made, or those before the one that throws. -/
theorem faultStep_of_finds (cfg : RoomConfig D) (h : e.finds s = some r) (fault : Option ℕ) :
    ∃ k, faultStep cfg s (e, fault) = (r.cutAt cfg e k).server ∧
        (storeCalls cfg r e).length ≤ k ∧ (∀ j ∈ fault, (storeCalls cfg r e).length ≤ j) ∨
      faultStep cfg s (e, fault) = (e.caught (r.cutAt cfg e k)).server ∧
        k < (storeCalls cfg r e).length ∧ fault = some k := by
  have hwhole : roomStep cfg s e = (r.cutAt cfg e (storeCalls cfg r e).length).server := by
    rw [cutAt_of_length_le le_rfl, roomStep_of_finds h]
  unfold faultStep
  rw [h]
  cases fault with
  | none => exact ⟨_, Or.inl ⟨hwhole, le_rfl, nofun⟩⟩
  | some k =>
    dsimp only
    split
    · next hk => exact ⟨k, Or.inr ⟨rfl, hk, rfl⟩⟩
    · next hk =>
      refine ⟨_, Or.inl ⟨hwhole, le_rfl, ?_⟩⟩
      intro j hj
      exact Option.some.inj hj ▸ Nat.not_lt.mp hk

/-- An event that finds no room is a change of the store, a restart, or nothing. -/
theorem roomStep_of_finds_none (cfg : RoomConfig D) (h : e.finds s = none) :
    (∃ event, e = .layer1 event) ∨ e = .restart ∨ roomStep cfg s e = s := by
  cases e with
  | layer1 event => exact Or.inl ⟨event, rfl⟩
  | restart => exact Or.inr (Or.inl rfl)
  | disconnect | closingTimer | sweepExpired | closeAll =>
    have hruntime : s.runtime = none := Option.map_eq_none_iff.mp h
    refine Or.inr (Or.inr ?_)
    simp only [roomStep, RoomServer.inMemory, hruntime]
  | promote | handleUpdate | handleSync | heartbeat | leave | demote | closeDeleted | compact
  | restoreHistoryVersion => simp [RoomEvent.finds] at h

/-- **What the calls on the data store keep, the calls on a room keep**: a room makes such
calls, and writes leases besides. -/
theorem invariant_roomStep (cfg : RoomConfig D) {I : Store → Prop}
    (hserver : ∀ data e, I data → I (serverStep cfg.platform data e))
    (hset : ∀ data activeUntil, I data → I (setActiveUntil cfg.vaultId cfg.fileId activeUntil data))
    (hclear : ∀ data, I data → I (clearActiveUntil cfg.vaultId cfg.fileId data))
    (h : I s.data) (e : RoomEvent D) : I (roomStep cfg s e).data := by
  cases hfinds : e.finds s with
  | none =>
    rcases roomStep_of_finds_none cfg hfinds with ⟨event, rfl⟩ | rfl | hsame
    · exact hserver s.data event h
    · exact h
    · rw [hsame]
      exact h
  | some r =>
    have hdata : r.data = s.data := congrArg Room.data (materialize_of_finds hfinds).symm
    have hcalls : ∀ (calls : StoreCalls D) (data : Store), I data →
        I (calls.foldl (fun data call => call.1.runData cfg data) data) := by
      intro calls
      induction calls with
      | nil => exact fun data h => h
      | cons call calls ih =>
        intro data h
        refine ih _ ?_
        rcases call with ⟨call, runtime⟩
        cases call with
        | process now uuid op => exact hserver data (.process now uuid op none) h
        | saveRow activeUntil => exact hset data activeUntil h
        | clearRow => exact hclear data h
        | getRole | getContent | saveRoom | appendUpdate | saveSnapshot | deleteUpdatesThrough =>
          exact h
    rw [roomStep_of_finds hfinds, ← ran_storeCalls]
    exact hcalls _ _ (hdata ▸ h)

/-- It makes no store calls, so none of them throws. -/
theorem faultStep_of_finds_none (cfg : RoomConfig D) (h : e.finds s = none)
    (fault : Option ℕ) : faultStep cfg s (e, fault) = roomStep cfg s e := by
  unfold faultStep
  rw [h]

end

end ObsidianSync
