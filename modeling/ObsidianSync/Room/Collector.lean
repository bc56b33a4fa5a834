import ObsidianSync.Room.Recovery

/-!
# The room manager does not see its tables

The room manager is modelled over one store, of which each call takes effect at once.  Over the
tables of `PgYjsRoomStore` a call is several statements, a room is read with three, and the
collector comes between any two of them.  To a client it is the same: the calls are answered in the
same way, and leave the same room, notes and history.

A version that the collector has pruned is not there to be restored, and a process that dies in the
middle of a call has made some of its statements: both are left out here.

## Main definitions

* `Room.Alike`, `Outcome.Alike` — rooms and outcomes that only differ in the store of the room.
* `Reply` — what a call answers, sends and broadcasts.
* `Refines` — the server over the tables and the one over the store are in the same state.

## Main results

* `storeCalls_alike`, `alike_outcome` — a call does not depend on what is stored of the room, a
  version that is restored apart.
* `refines_run` — **the server over the tables refines the one over the store**, whatever the
  collector does.
-/

namespace ObsidianSync

variable {D : Type}

/-! ### Rooms that differ in their stores -/

/-- The rooms are the same but for their stores. -/
structure Room.Alike (r r' : Room D) : Prop where
  data : r.data = r'.data
  runtime : r.runtime = r'.runtime

/-- The outcomes are the same but for the stores of the rooms. -/
structure Outcome.Alike {α : Type} (o o' : Outcome D α) : Prop where
  result : o.result = o'.result
  room : o.room.Alike o'.room
  sent : o.sent = o'.sent
  broadcast : o.broadcast = o'.broadcast

section

variable {r r' : Room D} {α β : Type} {o p o' p' : Outcome D α}

theorem Outcome.Alike.ite {c : Prop} [Decidable c] (ho : o.Alike o') (hp : p.Alike p') :
    (if c then o else p).Alike (if c then o' else p') := by
  split
  · exact ho
  · exact hp

/-- The same result of rooms that are alike. -/
theorem Room.Alike.same (h : r.Alike r') {result : Except Failure α}
    {sent : List (RoomSink × RoomMessage D)} :
    Outcome.Alike { result, room := r, sent } { result, room := r', sent } :=
  ⟨rfl, h, rfl, rfl⟩

theorem Outcome.Alike.map (h : o.Alike o') (f : α → β) :
    Outcome.Alike { o with result := o.result.map f } { o' with result := o'.result.map f } :=
  ⟨congrArg (·.map f) h.result, h.room, h.sent, h.broadcast⟩

/-- What is true of the rooms that differ in their stores. -/
theorem Room.Alike.elim {P : Room D → Room D → Prop} (h : r.Alike r')
    (hP : ∀ data runtime store store', P ⟨data, store, runtime⟩ ⟨data, store', runtime⟩) :
    P r r' := by
  obtain ⟨data, store, runtime⟩ := r
  obtain ⟨data', store', runtime'⟩ := r'
  obtain ⟨rfl, rfl⟩ : data = data' ∧ runtime = runtime' := ⟨h.data, h.runtime⟩
  exact hP data runtime store store'

end

/-! ### Methods -/

section

variable {busy : RoomSink → Bool} {r r' : Room D} {deviceId : String} {roomEpoch : ℕ}

namespace Room.Alike

theorem withParticipant (h : r.Alike r') (participant : Participant) :
    (r.withParticipant participant).Alike (r'.withParticipant participant) :=
  h.elim (P := fun r r' => (r.withParticipant participant).Alike (r'.withParticipant participant))
    fun _ _ _ _ => ⟨rfl, rfl⟩

theorem rejectIfStale (h : r.Alike r') :
    r'.rejectIfStale roomEpoch deviceId = r.rejectIfStale roomEpoch deviceId := by
  unfold Room.rejectIfStale Room.roomState
  rw [h.runtime]

theorem requireParticipant (h : r.Alike r') :
    r'.requireParticipant deviceId = r.requireParticipant deviceId := by
  unfold Room.requireParticipant
  rw [h.runtime]

theorem broadcastRoom (h : r.Alike r') {message : RoomMessage D} {always : Bool} :
    r'.broadcastRoom busy message always = r.broadcastRoom busy message always := by
  unfold Room.broadcastRoom
  rw [h.runtime]

theorem removeParticipant (h : r.Alike r') (participant : Participant) :
    (r.removeParticipant participant).Alike (r'.removeParticipant participant) := by
  unfold Room.removeParticipant scheduleClosingIfEmpty
  rw [h.runtime]
  dsimp only
  split <;> exact ⟨h.data, rfl⟩

theorem leave (h : r.Alike r') :
    (r.leave deviceId roomEpoch).Alike (r'.leave deviceId roomEpoch) := by
  unfold Room.leave
  rw [h.rejectIfStale, h.requireParticipant]
  cases r.rejectIfStale roomEpoch deviceId with
  | some sent => exact h.same
  | none =>
    cases r.requireParticipant deviceId with
    | error e => exact h.same
    | ok participant => exact (h.removeParticipant participant).same

theorem disconnect (h : r.Alike r') : (r.disconnect deviceId).Alike (r'.disconnect deviceId) := by
  unfold Room.disconnect
  rw [h.runtime]
  cases r'.runtime.participants.get? deviceId with
  | none => exact h
  | some participant => exact h.removeParticipant participant

end Room.Alike

end

section

variable [SemilatticeSup D] [OrderBot D] {cfg : RoomConfig D} {busy : RoomSink → Bool}
  {r r' : Room D} {now : ℕ} {uuid : Uuid} {deviceId userId : String} {roomEpoch : ℕ}

namespace Room.Alike

theorem join (h : r.Alike r') {file : StoredFile} {connection : ℕ} :
    (r.join cfg now file deviceId userId connection).Alike
      (r'.join cfg now file deviceId userId connection) := by
  refine h.elim (P := fun r r' => (r.join cfg now file deviceId userId connection).Alike
    (r'.join cfg now file deviceId userId connection)) fun data runtime store store' => ?_
  have hextended : (extendLease cfg ⟨data, store, runtime⟩ now deviceId).data
      = (extendLease cfg ⟨data, store', runtime⟩ now deviceId).data := rfl
  unfold Room.join welcomeBack
  dsimp only
  rw [hextended]
  cases requireRole _ _ _ _ _ <;> exact ⟨rfl, ⟨rfl, rfl⟩, rfl, rfl⟩

theorem activate (h : r.Alike r') {clientID : ℕ} {file : StoredFile} :
    (r.activate cfg now clientID file deviceId).Alike
      (r'.activate cfg now clientID file deviceId) :=
  h.elim (P := fun r r' => (r.activate cfg now clientID file deviceId).Alike
    (r'.activate cfg now clientID file deviceId)) fun _ _ _ _ => ⟨rfl, rfl⟩

theorem promote (h : r.Alike r') {clientID connection : ℕ} :
    (r.promote cfg now clientID deviceId userId connection).Alike
      (r'.promote cfg now clientID deviceId userId connection) := by
  have hactivates : r'.activates = r.activates := by
    unfold activates
    rw [h.runtime]
  unfold Room.promote
  rw [← h.data, hactivates]
  cases requireRole cfg.vaultId deviceId userId true r.data with
  | error e => exact h.same
  | ok role =>
    cases requiredLiveFile cfg.vaultId cfg.fileId r.data with
    | error e => exact h.same
    | ok file =>
      refine .ite h.same ?_
      cases r.activates with
      | false => exact h.join
      | true => exact h.activate.join

theorem acceptUpdate (h : r.Alike r') {participant : Participant} {updateId : ℕ} {update : D} :
    (r.acceptUpdate cfg busy now participant userId updateId update).Alike
      (r'.acceptUpdate cfg busy now participant userId updateId update) := by
  refine h.elim (P := fun r r' =>
    (r.acceptUpdate cfg busy now participant userId updateId update).Alike
      (r'.acceptUpdate cfg busy now participant userId updateId update))
    fun data runtime store store' => ?_
  unfold Room.acceptUpdate
  dsimp only
  by_cases hcadence : cfg.options.snapshotEveryUpdates > 0 ∧
      runtime.persisted.nextSeq % cfg.options.snapshotEveryUpdates = 0
  · rw [if_pos hcadence, if_pos hcadence]
    exact ⟨rfl, ⟨rfl, rfl⟩, rfl, rfl⟩
  · rw [if_neg hcadence, if_neg hcadence]
    exact ⟨rfl, ⟨rfl, rfl⟩, rfl, rfl⟩

theorem handleUpdate (h : r.Alike r') {updateId : ℕ} {update : D} :
    (r.handleUpdate cfg busy now deviceId userId roomEpoch updateId update).Alike
      (r'.handleUpdate cfg busy now deviceId userId roomEpoch updateId update) := by
  unfold Room.handleUpdate
  rw [← h.data, h.rejectIfStale, h.requireParticipant]
  cases requireRole cfg.vaultId deviceId userId true r.data with
  | error e => exact h.same
  | ok role =>
    refine .ite h.same ?_
    cases r.rejectIfStale roomEpoch deviceId with
    | some sent => exact h.same
    | none =>
      cases r.requireParticipant deviceId with
      | error e => exact h.same
      | ok participant =>
        refine .ite h.same (.ite ?_ ?_)
        · exact (h.withParticipant _).same
        · exact (h.withParticipant _).acceptUpdate

theorem handleSync (h : r.Alike r') {stateVector : D} :
    (r.handleSync cfg deviceId roomEpoch stateVector).Alike
      (r'.handleSync cfg deviceId roomEpoch stateVector) := by
  unfold Room.handleSync
  rw [h.rejectIfStale, h.requireParticipant, h.runtime]
  refine .ite h.same ?_
  cases r.rejectIfStale roomEpoch deviceId with
  | some sent => exact h.same
  | none => cases r.requireParticipant deviceId <;> exact h.same

theorem heartbeat (h : r.Alike r') :
    (r.heartbeat cfg now deviceId roomEpoch).Alike (r'.heartbeat cfg now deviceId roomEpoch) := by
  unfold Room.heartbeat
  rw [h.rejectIfStale, h.requireParticipant]
  cases r.rejectIfStale roomEpoch deviceId with
  | some sent => exact h.same
  | none =>
    cases r.requireParticipant deviceId with
    | error e => exact h.same
    | ok participant =>
      refine h.elim (P := fun r r' => Outcome.Alike
        { result := .ok (), room := (r.withPersisted { r.runtime.persisted with
          leaseUntil := some (now + cfg.options.leaseMs) }).saveRuntime cfg }
        { result := .ok (), room := (r'.withPersisted { r'.runtime.persisted with
          leaseUntil := some (now + cfg.options.leaseMs) }).saveRuntime cfg }) ?_
      exact fun _ _ _ _ => ⟨rfl, ⟨rfl, rfl⟩, rfl, rfl⟩

theorem demoteLocked (h : r.Alike r') {reason : RoomClosedReason} :
    (r.demoteLocked cfg busy now uuid reason).Alike
      (r'.demoteLocked cfg busy now uuid reason) := by
  refine h.elim (P := fun r r' => (r.demoteLocked cfg busy now uuid reason).Alike
    (r'.demoteLocked cfg busy now uuid reason)) fun data runtime store store' => ?_
  have hop : flushOp cfg ⟨data, store, runtime⟩ = flushOp cfg ⟨data, store', runtime⟩ := rfl
  unfold Room.demoteLocked
  refine .ite ⟨rfl, ⟨rfl, rfl⟩, rfl, rfl⟩ ?_
  dsimp only
  rw [hop]
  rcases process cfg.platform now uuid (flushOp cfg ⟨data, store', runtime⟩) none data with
    ⟨e | result, data'⟩
  · exact ⟨rfl, ⟨rfl, rfl⟩, rfl, rfl⟩
  · cases result <;> exact ⟨rfl, ⟨rfl, rfl⟩, rfl, rfl⟩

theorem demote (h : r.Alike r') {epoch : Option ℕ} {reason : RoomClosedReason} :
    (r.demote cfg busy now uuid deviceId epoch reason).Alike
      (r'.demote cfg busy now uuid deviceId epoch reason) := by
  unfold Room.demote
  cases epoch with
  | none => exact h.demoteLocked.map _
  | some epoch =>
    dsimp only
    rw [h.rejectIfStale, h.runtime]
    exact .ite h.same (h.demoteLocked.map _)

theorem demoteCaught (h : r.Alike r') {reason : RoomClosedReason} {failed : Room D → Room D}
    (hfailed : ∀ {r r' : Room D}, r.Alike r' → (failed r).Alike (failed r')) :
    (r.demoteCaught cfg busy now uuid reason failed).Alike
      (r'.demoteCaught cfg busy now uuid reason failed) := by
  have hdemote : (r.demoteLocked cfg busy now uuid reason).Alike
      (r'.demoteLocked cfg busy now uuid reason) := h.demoteLocked
  unfold Room.demoteCaught
  dsimp only
  rw [← hdemote.result]
  cases (r.demoteLocked cfg busy now uuid reason).result with
  | ok hash => exact ⟨rfl, hdemote.room, hdemote.sent, hdemote.broadcast⟩
  | error e => exact ⟨rfl, hfailed hdemote.room, (hfailed hdemote.room).broadcastRoom.symm, rfl⟩

theorem closeDeleted (h : r.Alike r') :
    (r.closeDeleted cfg busy).Alike (r'.closeDeleted cfg busy) := by
  refine h.elim (P := fun r r' => (r.closeDeleted cfg busy).Alike (r'.closeDeleted cfg busy))
    fun _ _ _ _ => ?_
  exact .ite ⟨rfl, ⟨rfl, rfl⟩, rfl, rfl⟩ ⟨rfl, ⟨rfl, rfl⟩, rfl, rfl⟩

theorem closingTimer (h : r.Alike r') :
    (r.closingTimer cfg busy now uuid).Alike (r'.closingTimer cfg busy now uuid) := by
  unfold Room.closingTimer
  rw [h.runtime]
  refine .ite (h.demoteCaught fun h => ⟨h.data, ?_⟩) h.same
  rw [h.runtime]

theorem sweepExpired (h : r.Alike r') :
    (r.sweepExpired cfg busy now uuid).Alike (r'.sweepExpired cfg busy now uuid) := by
  unfold Room.sweepExpired
  rw [h.runtime]
  exact .ite (h.demoteLocked.map _) h.same

theorem closeAll (h : r.Alike r') {reason : RoomClosedReason} :
    (r.closeAll cfg busy now uuid reason).Alike (r'.closeAll cfg busy now uuid reason) := by
  unfold Room.closeAll
  rw [h.runtime]
  exact .ite h.same (h.demoteCaught fun h => h)

theorem compact (h : r.Alike r') {throughSeq : Option ℕ} :
    (r.compact cfg now throughSeq).Alike (r'.compact cfg now throughSeq) :=
  h.elim (P := fun r r' => (r.compact cfg now throughSeq).Alike (r'.compact cfg now throughSeq))
    fun _ _ _ _ => ⟨rfl, ⟨rfl, rfl⟩, rfl, rfl⟩

theorem restoreHistoryVersion (h : r.Alike r') {clientID versionId : ℕ} {requestId : String}
    (hversion : r.roomStore.getSnapshotVersion versionId
      = r'.roomStore.getSnapshotVersion versionId) :
    (r.restoreHistoryVersion cfg busy now uuid clientID deviceId userId versionId requestId).Alike
      (r'.restoreHistoryVersion cfg busy now uuid clientID deviceId userId versionId
        requestId) := by
  have hreplace (data : Store) (text : String) :
      ({ r with data }.replaceText cfg busy now clientID deviceId userId text).1.Alike
        ({ r' with data }.replaceText cfg busy now clientID deviceId userId text).1 ∧
      ({ r with data }.replaceText cfg busy now clientID deviceId userId text).2
        = ({ r' with data }.replaceText cfg busy now clientID deviceId userId text).2 :=
    h.elim (P := fun r r' =>
      ({ r with data }.replaceText cfg busy now clientID deviceId userId text).1.Alike
        ({ r' with data }.replaceText cfg busy now clientID deviceId userId text).1 ∧
      ({ r with data }.replaceText cfg busy now clientID deviceId userId text).2
        = ({ r' with data }.replaceText cfg busy now clientID deviceId userId text).2)
      fun _ _ _ _ => ⟨⟨rfl, rfl⟩, rfl⟩
  unfold Room.restoreHistoryVersion
  rw [← h.data, hversion]
  cases requireRole cfg.vaultId deviceId userId true r.data with
  | error e => exact h.same
  | ok role =>
    cases requiredLiveFile cfg.vaultId cfg.fileId r.data with
    | error e => exact h.same
    | ok file =>
      cases r'.roomStore.getSnapshotVersion versionId with
      | none => exact h.same
      | some version =>
        dsimp only
        rcases process cfg.platform now uuid (restoreOp cfg file
          (textFromSnapshot cfg version.snapshot) requestId) none r.data with ⟨e | result, data⟩
        · exact ⟨rfl, ⟨rfl, h.runtime⟩, rfl, rfl⟩
        · cases result with
          | reject answer => exact ⟨rfl, ⟨rfl, h.runtime⟩, rfl, rfl⟩
          | ack answer =>
            have hreplaced := hreplace data (textFromSnapshot cfg version.snapshot)
            exact ⟨rfl, hreplaced.1, hreplaced.2, rfl⟩

end Room.Alike

end

/-! ### Answers -/

/-- What a call answers its caller, or the failure it ends with, what it sends to the sockets and
what it broadcasts to the vault. -/
structure Reply (D : Type) where
  failure : Option Failure := none
  answer : Option (RoomMessage D) := none
  sent : List (RoomSink × RoomMessage D) := []
  broadcast : List AppliedOp := []

/-- What a caller gets of an outcome. -/
def Outcome.reply {α : Type} (o : Outcome D α) (answer : α → Option (RoomMessage D)) : Reply D where
  failure :=
    match o.result with
    | .error e => some e
    | .ok _ => none
  answer :=
    match o.result with
    | .error _ => none
    | .ok a => answer a
  sent := o.sent
  broadcast := o.broadcast

theorem Outcome.Alike.reply {α : Type} {o o' : Outcome D α} (h : o.Alike o')
    (answer : α → Option (RoomMessage D)) : o.reply answer = o'.reply answer := by
  unfold Outcome.reply
  rw [h.result, h.sent, h.broadcast]

/-- The version that a call restores. -/
def RoomEvent.version : RoomEvent D → Option ℕ
  | .restoreHistoryVersion _ _ _ _ _ versionId _ => some versionId
  | _ => none

/-- The rooms are alike, and have the version that the call restores. -/
structure AlikeFor (e : RoomEvent D) (r r' : Room D) : Prop extends r.Alike r' where
  version : ∀ versionId ∈ e.version,
    r.roomStore.getSnapshotVersion versionId = r'.roomStore.getSnapshotVersion versionId

section

variable [SemilatticeSup D] [OrderBot D] (cfg : RoomConfig D) (busy : RoomSink → Bool)

/-- What a call answers while some sockets are behind. -/
def RoomEvent.reply (r : Room D) : RoomEvent D → Reply D
  | .layer1 _ | .restart | .disconnect _ => {}
  | .promote now clientID deviceId userId connection =>
    (r.promote cfg now clientID deviceId userId connection).reply some
  | .handleUpdate now deviceId userId roomEpoch updateId update =>
    (r.handleUpdate cfg busy now deviceId userId roomEpoch updateId update).reply fun _ => none
  | .handleSync deviceId roomEpoch stateVector =>
    (r.handleSync cfg deviceId roomEpoch stateVector).reply fun _ => none
  | .heartbeat now deviceId roomEpoch =>
    (r.heartbeat cfg now deviceId roomEpoch).reply fun _ => none
  | .leave deviceId roomEpoch => (r.leave deviceId roomEpoch).reply fun _ => none
  | .demote now uuid deviceId roomEpoch reason =>
    (r.demote cfg busy now uuid deviceId roomEpoch reason).reply fun _ => none
  | .closeDeleted => (r.closeDeleted cfg busy).reply fun _ => none
  | .closingTimer now uuid => (r.closingTimer cfg busy now uuid).reply fun _ => none
  | .sweepExpired now uuid => (r.sweepExpired cfg busy now uuid).reply fun _ => none
  | .closeAll now uuid reason => (r.closeAll cfg busy now uuid reason).reply fun _ => none
  | .compact now throughSeq => (r.compact cfg now throughSeq).reply fun _ => none
  | .restoreHistoryVersion now uuid clientID deviceId userId versionId requestId =>
    (r.restoreHistoryVersion cfg busy now uuid clientID deviceId userId versionId requestId).reply
      fun restored => some (.historyRestored requestId versionId restored.text)

/-- The answers of the calls, each with the sockets that are behind then. -/
def roomReplies : List (RoomSink → Bool) → RoomServer D → List (RoomEvent D) → List (Reply D)
  | _, _, [] => []
  | busy, s, e :: es =>
    ((e.finds s).map fun r => e.reply cfg (busy.headD ready) r).toList ++
      roomReplies busy.tail (roomStep cfg s e) es

/-- The answers of the server over the tables. -/
def pgReplies : List (RoomSink → Bool) → PgRoomServer D → List (PgRoomEvent D) → List (Reply D)
  | _, _, [] => []
  | busy, s, .call e between :: es =>
    ((s.finds e between).map fun found => e.reply cfg (busy.headD ready) found.2).toList ++
      pgReplies busy.tail (pgRoomStep cfg s (.call e between)) es
  | busy, s, event :: es => pgReplies busy (pgRoomStep cfg s event) es

omit [SemilatticeSup D] [OrderBot D] in
/-- The calls of a run. -/
def callsOf (es : List (PgRoomEvent D)) : List (RoomEvent D) :=
  es.filterMap fun
    | .call e _ => some e
    | _ => none

variable {cfg busy} {r r' : Room D} {e : RoomEvent D}

theorem AlikeFor.room (h : AlikeFor e r r') : (e.room cfg r).Alike (e.room cfg r') := by
  cases e with
  | layer1 | restart => exact h.toAlike
  | promote => exact h.toAlike.promote.room
  | handleUpdate => exact h.toAlike.handleUpdate.room
  | handleSync => exact h.toAlike.handleSync.room
  | heartbeat => exact h.toAlike.heartbeat.room
  | leave => exact h.toAlike.leave.room
  | disconnect => exact h.toAlike.disconnect
  | demote => exact h.toAlike.demote.room
  | closeDeleted => exact h.toAlike.closeDeleted.room
  | closingTimer => exact h.toAlike.closingTimer.room
  | sweepExpired => exact h.toAlike.sweepExpired.room
  | closeAll => exact h.toAlike.closeAll.room
  | compact => exact h.toAlike.compact.room
  | restoreHistoryVersion => exact (h.toAlike.restoreHistoryVersion (h.version _ rfl)).room

/-- A call answers the same. -/
theorem AlikeFor.reply (h : AlikeFor e r r') : e.reply cfg busy r = e.reply cfg busy r' := by
  cases e with
  | layer1 | restart | disconnect => rfl
  | promote => exact h.toAlike.promote.reply _
  | handleUpdate => exact h.toAlike.handleUpdate.reply _
  | handleSync => exact h.toAlike.handleSync.reply _
  | heartbeat => exact h.toAlike.heartbeat.reply _
  | leave => exact h.toAlike.leave.reply _
  | demote => exact h.toAlike.demote.reply _
  | closeDeleted => exact h.toAlike.closeDeleted.reply _
  | closingTimer => exact h.toAlike.closingTimer.reply _
  | sweepExpired => exact h.toAlike.sweepExpired.reply _
  | closeAll => exact h.toAlike.closeAll.reply _
  | compact => exact h.toAlike.compact.reply fun _ => none
  | restoreHistoryVersion => exact (h.toAlike.restoreHistoryVersion (h.version _ rfl)).reply _

/-- A call makes the same calls on the stores. -/
theorem AlikeFor.storeCalls (h : AlikeFor e r r') :
    storeCalls cfg r e = ObsidianSync.storeCalls cfg r' e := by
  have hversion := h.version
  revert hversion
  refine h.toAlike.elim (P := fun r r' =>
    (∀ versionId ∈ e.version,
      r.roomStore.getSnapshotVersion versionId = r'.roomStore.getSnapshotVersion versionId) →
    ObsidianSync.storeCalls cfg r e = ObsidianSync.storeCalls cfg r' e) ?_
  intro data runtime store store' hversion
  cases e with
  | restoreHistoryVersion now uuid clientID deviceId userId versionId requestId =>
    have hsame : store.getSnapshotVersion versionId = store'.getSnapshotVersion versionId :=
      hversion versionId rfl
    simp only [ObsidianSync.storeCalls, Room.restoreHistoryVersionCalls, hsame]
    rfl
  | _ => rfl

/-! ### The history -/

omit [SemilatticeSup D] [OrderBot D] in
/-- The versions that calls add to the history. -/
def versionsOf (calls : StoreCalls D) : List (YjsSnapshotVersion D) :=
  calls.filterMap fun call =>
    match call.1 with
    | .saveSnapshot version => some version
    | _ => none

section

omit [SemilatticeSup D] [OrderBot D]

variable {calls : StoreCalls D} {statements : List (RoomStatement D)} {tables : PgYjsTables D}
  {between : List (List CollectorStatement)}

theorem history_foldl (store : YjsRoomStore D) :
    (calls.foldl (fun store call => call.1.runRoomStore store) store).history
      = store.history ++ versionsOf calls := by
  induction calls generalizing store with
  | nil => exact (List.append_nil _).symm
  | cons call calls ih =>
    rcases call with ⟨call, memory⟩
    rw [List.foldl_cons, ih]
    cases call with
    | saveSnapshot version => exact List.append_assoc _ [version] _
    | _ => rfl

theorem history_collect (tables : PgYjsTables D) (statement : CollectorStatement) :
    (tables.collect statement).history = tables.history := by
  unfold PgYjsTables.collect
  cases statement with
  | supersededSnapshots =>
    dsimp only
    split <;> rfl
  | _ => rfl

theorem history_collected (tables : PgYjsTables D) (statements : List CollectorStatement) :
    (tables.collected statements).history = tables.history := by
  induction statements generalizing tables with
  | nil => rfl
  | cons statement statements ih =>
    exact (ih (tables.collect statement)).trans (history_collect tables statement)

/-- A statement on the store adds a version, or none. -/
theorem history_run (statement : PgStatement D) (tables : PgYjsTables D) :
    (tables.run statement).history = tables.history ++
      match statement with
      | .insertVersion version => [version]
      | _ => [] := by
  cases statement with
  | insertVersion version => rfl
  | appendUpdate update =>
    rw [List.append_nil]
    unfold PgYjsTables.run
    dsimp only
    split <;> rfl
  | _ => exact (List.append_nil _).symm

theorem history_runAll (between : List (List CollectorStatement)) (tables : PgYjsTables D) :
    (runAll between (statementsOf calls) tables).history
      = tables.history ++ versionsOf calls := by
  induction calls generalizing between tables with
  | nil => exact (List.append_nil _).symm
  | cons call calls ih =>
    rcases call with ⟨call, memory⟩
    rw [statementsOf_cons, runAll_append, ih]
    have hone : (runAll between (statementsOf [(call, memory)]) tables).history
        = tables.history ++ versionsOf [(call, memory)] := by
      cases call <;>
        simp [statementsOf, StoreCall.statements, runAll, RoomStatement.runTables, history_run,
          history_collected, versionsOf]
    rw [hone, List.append_assoc]
    exact congrArg (tables.history ++ ·) (List.filterMap_append (l := [_])).symm

end

/-! ### Refinement -/

/-- Nobody dies in the middle of a call, a compaction stays within the updates that were merged,
and a version that is restored was not pruned. -/
def Uninterrupted (s : PgRoomServer D) : PgRoomEvent D → Prop
  | .call e _ =>
    (match e with
    | .compact _ throughSeq => ∀ seq ∈ throughSeq, seq < s.room.persisted.nextSeq
    | _ => True) ∧ ∀ versionId ∈ e.version, versionId ∉ s.tables.pruned
  | .crash .. => False
  | .collect _ => True

/-- The two servers have the same notes, the same room in memory and the same history, and a
restart gives the same room. -/
structure Refines (s : PgRoomServer D) (t : RoomServer D) : Prop where
  data : s.data = t.data
  runtime : s.runtime = t.runtime
  history : s.tables.history = t.roomStore.history
  restart : ∀ between later, s.tables.loadRuntime between later = loadRuntime t.roomStore

/-- What carries the refinement: the one store is up to date, and the tables are those of its
room. -/
structure Coincide (s : PgRoomServer D) (t : RoomServer D) : Prop where
  data : s.data = t.data
  runtime : s.runtime = t.runtime
  history : s.tables.history = t.roomStore.history
  durable : Durable t.materialize
  keeps : KeepsRoom s t.materialize.runtime.persisted t.materialize.runtime.doc

section

variable {s : PgRoomServer D} {t : RoomServer D} {between : List (List CollectorStatement)}

theorem Coincide.refines (h : Coincide s t) : Refines s t where
  data := h.data
  runtime := h.runtime
  history := h.history
  restart between later := by
    have hstored : t.roomStore.room.getD emptyRoom = t.materialize.runtime.persisted :=
      h.durable.stored
    have hloaded : loadDoc t.roomStore t.materialize.runtime.persisted
        = t.materialize.runtime.doc := h.durable.loaded
    rw [h.keeps.stored.loadRuntime between later]
    unfold loadRuntime
    rw [hstored]
    dsimp only
    rw [hloaded]

omit [OrderBot D] [SemilatticeSup D] in
/-- Nothing that the call restores was pruned, so it sees the whole history. -/
theorem versions_of_not_pruned {tables : PgYjsTables D}
    (h : ∀ versionId ∈ e.version, versionId ∉ tables.pruned) :
    tables.versions e = tables.history := by
  cases e with
  | restoreHistoryVersion now uuid clientID deviceId userId versionId requestId =>
    exact if_neg (h versionId rfl)
  | _ => rfl

/-- Two servers of which both have the room in memory, or neither, both find a room or none. -/
theorem finds_materialize {u t : RoomServer D} (h : u.runtime.isSome = t.runtime.isSome) :
    e.finds u = none ∧ e.finds t = none ∨
      e.finds u = some u.materialize ∧ e.finds t = some t.materialize := by
  unfold RoomEvent.finds RoomServer.materialize
  cases hu : u.runtime <;> cases ht : t.runtime <;> rw [hu, ht] at h
  · cases e <;> simp
  · cases h
  · cases h
  · cases e <;> simp

/-- Both servers find a room or none, and the rooms are alike. -/
theorem Coincide.finds (h : Coincide s t)
    (hversion : ∀ versionId ∈ e.version, versionId ∉ s.tables.pruned)
    (between : List (List CollectorStatement)) :
    s.finds e between = none ∧ e.finds t = none ∨
      ∃ tables r, s.finds e between = some (tables, r) ∧ e.finds t = some t.materialize ∧
        AlikeFor e r t.materialize ∧ tables.history = s.tables.history := by
  have hhistory : s.tables.versions e = t.roomStore.history :=
    (versions_of_not_pruned hversion).trans h.history
  unfold PgRoomServer.finds
  dsimp only
  rw [hhistory]
  cases hruntime : s.runtime with
  | none =>
    have hnone : t.runtime = none := h.runtime.symm.trans hruntime
    have hload : t.materialize.runtime = loadRuntime t.roomStore := by
      unfold RoomServer.materialize
      rw [hnone]
      rfl
    rcases finds_materialize (e := e) (t := t)
        (u := ⟨s.data, { history := t.roomStore.history }, none⟩) (by rw [hnone]) with
      ⟨hu, ht⟩ | ⟨hu, ht⟩
    · exact Or.inl ⟨congrArg (Option.map _) hu, ht⟩
    · refine Or.inr ⟨_, _, congrArg (Option.map _) hu, ht, ⟨⟨h.data, ?_⟩, fun _ _ => rfl⟩, ?_⟩
      · exact (h.refines.restart _ _).trans hload.symm
      · rw [history_collected, history_collected]
  | some runtime =>
    have hsome : t.runtime = some runtime := h.runtime.symm.trans hruntime
    have hmemory : t.materialize.runtime = runtime := by
      unfold RoomServer.materialize
      rw [hsome]
      rfl
    rcases finds_materialize (e := e) (t := t)
        (u := ⟨s.data, { history := t.roomStore.history }, some runtime⟩) (by rw [hsome]) with
      ⟨hu, ht⟩ | ⟨hu, ht⟩
    · exact Or.inl ⟨congrArg (Option.map _) hu, ht⟩
    · exact Or.inr ⟨_, _, congrArg (Option.map _) hu, ht,
        ⟨⟨h.data, hmemory.symm⟩, fun _ _ => rfl⟩, rfl⟩

theorem compactsMerged_of_uninterrupted (h : Coincide s t)
    (huninterrupted : Uninterrupted s (.call e between)) : CompactsMerged t e := by
  cases e with
  | compact now throughSeq =>
    intro seq hseq
    rw [← h.keeps.room]
    exact huninterrupted.1 seq hseq
  | _ => trivial

/-- A call that finds no room changes the notes, or the process is restarted, or it does
nothing. -/
theorem Coincide.step_of_finds_none (h : Coincide s t) (hs : s.finds e between = none)
    (ht : e.finds t = none) :
    Coincide (pgRoomStep cfg s (.call e between)) (roomStep cfg t e) := by
  have hdurable : Durable (roomStep cfg t e).materialize := by
    refine durable_roomStep h.durable ?_
    cases e with
    | compact => cases ht
    | _ => trivial
  cases e with
  | layer1 event =>
    exact ⟨congrArg (serverStep cfg.platform · event) h.data, h.runtime, h.history, hdurable,
      h.keeps.stored, h.keeps.runtime, h.keeps.told⟩
  | restart =>
    obtain ⟨hpersisted, hdoc⟩ := loadRuntime_of_durable h.durable
    refine ⟨h.data, rfl, h.history, hdurable, ?_⟩
    show KeepsRoom { s with runtime := none } (loadRuntime t.materialize.roomStore).persisted
      (loadRuntime t.materialize.roomStore).doc
    rw [hpersisted, hdoc]
    exact ⟨h.keeps.stored, nofun, h.keeps.told⟩
  | disconnect | closingTimer | sweepExpired | closeAll =>
    have hnone : t.runtime = none := Option.map_eq_none_iff.mp ht
    simp only [pgRoomStep, hs, roomStep, RoomServer.inMemory, hnone]
    exact h
  | promote | handleUpdate | handleSync | heartbeat | leave | demote | closeDeleted | compact
  | restoreHistoryVersion => cases ht

/-- A call answers the same. -/
theorem Coincide.reply (h : Coincide s t) (huninterrupted : Uninterrupted s (.call e between)) :
    (s.finds e between).map (fun found => e.reply cfg busy found.2)
      = (e.finds t).map (e.reply cfg busy) := by
  rcases h.finds huninterrupted.2 between with ⟨hs, ht⟩ | ⟨tables, r, hs, ht, halike, -⟩
  · rw [hs, ht]
    rfl
  · rw [hs, ht]
    exact congrArg some halike.reply

/-- **A call leaves both servers in the same state.** -/
theorem Coincide.step (h : Coincide s t) (huninterrupted : Uninterrupted s (.call e between)) :
    Coincide (pgRoomStep cfg s (.call e between)) (roomStep cfg t e) := by
  rcases h.finds huninterrupted.2 between with ⟨hs, ht⟩ | ⟨tables, r, hs, ht, halike, hhistory⟩
  · exact h.step_of_finds_none hs ht
  · have hdurable : Durable (roomStep cfg t e).materialize :=
      durable_roomStep h.durable (compactsMerged_of_uninterrupted h huninterrupted)
    rw [roomStep_of_finds ht] at hdurable ⊢
    have hcompact : ∀ {now throughSeq}, e = .compact now throughSeq →
        ∀ seq ∈ throughSeq, seq < s.room.persisted.nextSeq := by
      rintro now throughSeq rfl
      exact huninterrupted.1
    have hruntime : (e.room cfg r).runtime = (e.room cfg t.materialize).runtime :=
      halike.room.runtime
    rw [pgRoomStep_of_finds hs]
    obtain ⟨persisted, doc, hkeeps⟩ := h.keeps.call hs hcompact
    obtain ⟨rfl, rfl⟩ := hkeeps.runtime _ rfl
    refine ⟨halike.room.data, congrArg some hruntime, ?_, hdurable, hruntime ▸ hkeeps⟩
    show (runAll (between.drop 2) (statementsOf (storeCalls cfg r e)) tables).history
      = (e.room cfg t.materialize).roomStore.history
    rw [history_runAll, halike.storeCalls, hhistory, h.history, ← ran_storeCalls t.materialize e]
    exact (history_foldl _).symm

theorem Coincide.collect (h : Coincide s t) (statement : CollectorStatement) :
    Coincide (pgRoomStep cfg s (.collect statement)) t where
  data := h.data
  runtime := h.runtime
  history := (history_collect s.tables statement).trans h.history
  durable := h.durable
  keeps := ⟨h.keeps.stored.collect statement, h.keeps.runtime, h.keeps.told⟩

theorem coincide_initial (data : Store) : Coincide ({ data } : PgRoomServer D) { data } where
  data := rfl
  runtime := rfl
  history := rfl
  durable := durable_initial data
  keeps := by
    have hdoc : ({ data } : RoomServer D).materialize.runtime.doc = ⊥ := bot_sup_eq ⊥
    rw [hdoc]
    exact keepsRoom_initial data

theorem Coincide.run (h : Coincide s t) (busy : List (RoomSink → Bool)) (es : List (PgRoomEvent D))
    (hes : Run.EachStep (pgRoomStep cfg) Uninterrupted s es) :
    pgReplies cfg busy s es = roomReplies cfg busy t (callsOf es) ∧
      Coincide (Run.final (pgRoomStep cfg) s es) (Run.final (roomStep cfg) t (callsOf es)) := by
  induction es generalizing busy s t with
  | nil => exact ⟨rfl, h⟩
  | cons event es ih =>
    obtain ⟨hevent, hrest⟩ := hes
    cases event with
    | crash => exact absurd hevent id
    | collect statement => exact ih (h.collect statement) busy hrest
    | call e between =>
      have hreply : (s.finds e between).map (fun found => e.reply cfg (busy.headD ready) found.2)
          = (e.finds t).map (e.reply cfg (busy.headD ready)) := h.reply hevent
      obtain ⟨hreplies, hfinal⟩ := ih (h.step hevent) busy.tail hrest
      refine ⟨?_, hfinal⟩
      show (((s.finds e between).map fun found => e.reply cfg (busy.headD ready) found.2).toList ++
          pgReplies cfg busy.tail (pgRoomStep cfg s (.call e between)) es)
        = ((e.finds t).map (e.reply cfg (busy.headD ready))).toList ++
          roomReplies cfg busy.tail (roomStep cfg t e) (callsOf es)
      rw [hreply, hreplies]

end

variable (cfg)

/-- **The server over the tables refines the server over the store**: in every run in which no
process dies in the middle of a call, with the collector between any two statements, the calls are
answered in the same way, the servers end with the same notes, rooms and history, and a restart
gives the same room. -/
theorem refines_run (busy : List (RoomSink → Bool)) (data : Store) (es : List (PgRoomEvent D))
    (h : Run.EachStep (pgRoomStep cfg) Uninterrupted { data } es) :
    pgReplies cfg busy { data } es = roomReplies cfg busy { data } (callsOf es) ∧
      Refines (Run.final (pgRoomStep cfg) { data } es)
        (Run.final (roomStep cfg) { data } (callsOf es)) := by
  obtain ⟨hreplies, hfinal⟩ := (coincide_initial data).run busy es h
  exact ⟨hreplies, hfinal.refines⟩

end

/-- The note is opened, written and compacted, restored to its first version while the collector
runs, and opened again after a restart. -/
def sampleCollected : List (PgRoomEvent (Finset Write)) :=
  [.call sampleCreate [], .call (.promote 2 7 "d2" "u" 0) [[.compactedUpdates]],
    .call (.handleUpdate 3 "d2" "u" 1 1 (writes.change 9 textName "two"
      (writes.change 7 textName "one" ⊥))) [[], [.compactedUpdates]],
    .call (.compact 4 none) [[.supersededSnapshots], [], [.compactedUpdates]],
    .collect (.pruneSnapshotHistory [1]),
    .call (.restoreHistoryVersion 5 sampleUuid 8 "d2" "u" 0
      "00000000-0000-4000-8000-000000000001") [[], [.compactedUpdates]],
    .call .restart [],
    .call (.promote 6 8 "d1" "u" 0) [[.compactedUpdates], [.supersededSnapshots]]]

theorem refines_run_sample :
    pgReplies sampleRoom [] { data := sampleStore } sampleCollected
        = roomReplies sampleRoom [] { data := sampleStore } (callsOf sampleCollected) ∧
      Refines (Run.final (pgRoomStep sampleRoom) { data := sampleStore } sampleCollected)
        (Run.final (roomStep sampleRoom) { data := sampleStore } (callsOf sampleCollected)) := by
  refine refines_run sampleRoom [] sampleStore sampleCollected
    ⟨⟨trivial, nofun⟩, ⟨trivial, nofun⟩, ⟨trivial, nofun⟩, ⟨nofun, nofun⟩, trivial,
      ⟨trivial, ?_⟩, ⟨trivial, nofun⟩, ⟨trivial, nofun⟩, trivial⟩
  decide +kernel

end ObsidianSync
