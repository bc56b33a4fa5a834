import ObsidianSync.Socket.System

/-!
# Sockets and participants

A device reaches the rooms through a socket.  A room keeps its participants by device, each
with the socket it was promoted through, and when the server handles the close of a socket
it removes the device of the socket from all rooms in memory.  By then the device may have
come back on another socket.

## Main definitions

* `ConnectedServer`, `ConnectionEvent`, `connectionStep` — the rooms with the sockets, and
  which of these were promoted into which rooms.
* `Promoted` — an open socket was promoted into the present incarnation of a room.
* `ClosesOwn` — a close removes the participants of its socket only.
* `KeptIn` — devices with such a socket are participants, up to date with their room.
* `LastSocket` — a device has no other socket in a room than the one that is closed.

## Main results

* `keepsParticipants_roomStep` — no other call takes a participant out of an open room.
* `closesOwn_iff_lastSocket` — sockets only affect their own participation as long as no
  device has two.
-/

namespace ObsidianSync

/-- A socket that was promoted into a room: its number, the room, and its incarnation. -/
structure Promotion where
  connection : ℕ
  note : String × String
  roomEpoch : ℕ
  deriving DecidableEq, Repr

/-- The server with its sockets: what they said hello as, which ones are closed, and the
promotions so far.  Nothing reads the last two. -/
structure ConnectedServer (D : Type) where
  sync : SyncServer D
  connections : ℕ → Option Connection := fun _ => none
  closed : List ℕ := []
  promotions : List Promotion := []

/-- What happens: a message of a socket, its close, or anything else on the server.  The
messages of a socket that wait are handled after its close too. -/
inductive ConnectionEvent (D : Type)
  | hello (connection : ℕ) (claims : Connection)
  | promote (connection : ℕ) (now : Time) (clientID : ℕ) (fileId : String)
  | handleUpdate (connection : ℕ) (now : Time) (fileId : String) (roomEpoch updateId : ℕ)
      (update : D)
  | leave (connection : ℕ) (fileId : String) (roomEpoch : ℕ)
  | close (connection : ℕ)
  | server (event : SyncEvent D)
  | restart

section

variable {D : Type} [SemilatticeSup D] [OrderBot D]

/-- The rooms after the close of a socket of the device. -/
def SyncServer.disconnect (s : SyncServer D) (deviceId : String) : SyncServer D :=
  { s with rooms := fun note =>
    { s.rooms note with runtime := (s.rooms note).runtime.map fun runtime =>
      (Room.disconnect { data := s.data, roomStore := (s.rooms note).roomStore, runtime }
        deviceId).runtime } }

/-- The calls on rooms that do not come as messages of a socket about its participation. -/
def ofServer : SyncEvent D → Bool
  | .server _ => true
  | .room _ _ (.promote ..) | .room _ _ (.leave ..) | .room _ _ (.disconnect ..)
  | .room _ _ .restart => false
  | .room .. => true

/-- The server and its connections after an event. -/
def connectionStep (cfg : RoomConfig D) (s : ConnectedServer D) :
    ConnectionEvent D → ConnectedServer D
  | .hello connection claims =>
    if (s.connections connection).isSome then s
    else { s with connections := Function.update s.connections connection (some claims) }
  | .promote connection now clientID fileId =>
    match s.connections connection with
    | none => s
    | some claims =>
      let outcome := (s.sync.room claims.vaultId fileId).materialize.promote
        (cfg.ofNote claims.vaultId fileId) now clientID claims.deviceId claims.userId connection
      { s with
        sync := syncStep cfg s.sync (.room claims.vaultId fileId
          (.promote now clientID claims.deviceId claims.userId connection))
        promotions :=
          match outcome.result with
          | .error _ => s.promotions
          | .ok _ => s.promotions ++
            [{ connection, note := (claims.vaultId, fileId)
               roomEpoch := outcome.room.runtime.persisted.epoch }] }
  | .handleUpdate connection now fileId roomEpoch updateId update =>
    match s.connections connection with
    | none => s
    | some claims =>
      { s with sync := syncStep cfg s.sync (.room claims.vaultId fileId
          (.handleUpdate now claims.deviceId claims.userId roomEpoch updateId update)) }
  | .leave connection fileId roomEpoch =>
    match s.connections connection with
    | none => s
    | some claims =>
      { s with
        sync := syncStep cfg s.sync
          (.room claims.vaultId fileId (.leave claims.deviceId roomEpoch))
        -- the device has left, whatever sockets it has
        promotions := s.promotions.filter fun promotion =>
          ¬ (promotion.note = (claims.vaultId, fileId) ∧
            (s.connections promotion.connection).any fun other =>
              other.deviceId = claims.deviceId) }
  | .close connection =>
    let s := { s with closed := s.closed ++ [connection] }
    match s.connections connection with
    | none => s
    | some claims => { s with sync := s.sync.disconnect claims.deviceId }
  | .server event => if ofServer event then { s with sync := syncStep cfg s.sync event } else s
  -- all sockets are gone, and what was only in memory
  | .restart =>
    { sync := { s.sync with rooms := fun note => { s.sync.rooms note with runtime := none } } }

/-! ### The claim -/

/-- An open socket of the device was promoted into the incarnation of the room that is
open now. -/
structure Promoted (s : ConnectedServer D) (connection : ℕ) (claims : Connection)
    (note : String × String) (runtime : RuntimeRoom D) : Prop where
  hello : s.connections connection = some claims
  isOpen : connection ∉ s.closed
  inMemory : (s.sync.rooms note).runtime = some runtime
  active : runtime.persisted.active = true
  promotion : { connection, note, roomEpoch := runtime.persisted.epoch } ∈ s.promotions

/-- The device of every such socket is a participant, and its updates are not stale. -/
def KeptIn (s : ConnectedServer D) : Prop :=
  ∀ connection claims note runtime, Promoted s connection claims note runtime →
    (∃ participant, runtime.participants.get? claims.deviceId = some participant) ∧
      Room.rejectIfStale
        { data := s.sync.data, roomStore := (s.sync.rooms note).roomStore, runtime }
        runtime.persisted.epoch claims.deviceId = none

/-- A close removes no participant that was registered through another socket. -/
def ClosesOwn (cfg : RoomConfig D) (s : ConnectedServer D) (e : ConnectionEvent D) : Prop :=
  ∀ connection, e = .close connection → ∀ note runtime participant,
    (s.sync.rooms note).runtime = some runtime →
    runtime.participants.get? participant.deviceId = some participant →
    participant.sink.connection ≠ connection →
    ∃ runtime', ((connectionStep cfg s e).sync.rooms note).runtime = some runtime' ∧
      runtime'.participants.get? participant.deviceId = some participant

/-- When a socket is closed, its device takes part in rooms through this socket only, and has
promoted no other open one. -/
def LastSocket (s : ConnectedServer D) (e : ConnectionEvent D) : Prop :=
  ∀ connection claims, e = .close connection → s.connections connection = some claims →
    (∀ note runtime participant, (s.sync.rooms note).runtime = some runtime →
      runtime.participants.get? claims.deviceId = some participant →
      participant.sink.connection = connection) ∧
    ∀ other claims' note runtime, other ≠ connection → claims'.deviceId = claims.deviceId →
      ¬ Promoted s other claims' note runtime

/-! ### Participants -/

/-- What a call leaves of the participants: those of an incarnation that stays open stay,
but for the device that is gone. -/
structure KeepsParticipants (gone : Option String) (r r' : Room D) : Prop where
  epoch : r.runtime.persisted.epoch ≤ r'.runtime.persisted.epoch
  notClosed : (r.runtime.persisted.active = true → r.runtime.state ≠ .closed) →
    r'.runtime.persisted.active = true → r'.runtime.state ≠ .closed
  kept : r'.runtime.persisted.epoch = r.runtime.persisted.epoch →
    r'.runtime.persisted.active = true → r.runtime.persisted.active = true ∧
      ∀ deviceId, some deviceId ≠ gone → (r.runtime.participants.get? deviceId).isSome →
        (r'.runtime.participants.get? deviceId).isSome

namespace KeepsParticipants

variable {gone : Option String} {r r' r'' : Room D}

omit [SemilatticeSup D] [OrderBot D] in
theorem trans (h : KeepsParticipants gone r r') (h' : KeepsParticipants gone r' r'') :
    KeepsParticipants gone r r'' where
  epoch := h.epoch.trans h'.epoch
  notClosed hr := h'.notClosed (h.notClosed hr)
  kept hsame hactive := by
    -- the incarnation between them is the same
    have hsame' : r''.runtime.persisted.epoch = r'.runtime.persisted.epoch :=
      le_antisymm (hsame.le.trans h.epoch) h'.epoch
    obtain ⟨hactive', hkept'⟩ := h'.kept hsame' hactive
    obtain ⟨hactive'', hkept⟩ := h.kept (hsame'.symm.trans hsame) hactive'
    refine ⟨hactive'', fun deviceId hne hsome => hkept' deviceId hne (hkept deviceId hne hsome)⟩

omit [SemilatticeSup D] [OrderBot D] in
/-- A call that leaves the incarnation, its activity and the participants alone. -/
theorem of_eq (hepoch : r'.runtime.persisted.epoch = r.runtime.persisted.epoch)
    (hactive : r'.runtime.persisted.active = r.runtime.persisted.active)
    (hparticipants : r'.runtime.participants = r.runtime.participants)
    (hstate : r'.runtime.state = r.runtime.state ∨ r'.runtime.state ≠ .closed) :
    KeepsParticipants gone r r' where
  epoch := hepoch.ge
  notClosed hr hopen := by
    rcases hstate with hstate | hstate
    · rw [hstate]
      exact hr (hactive ▸ hopen)
    · exact hstate
  kept _ hopen := ⟨hactive ▸ hopen, fun deviceId _ hsome => by rw [hparticipants]; exact hsome⟩

omit [SemilatticeSup D] [OrderBot D] in
theorem refl (r : Room D) : KeepsParticipants gone r r := of_eq rfl rfl rfl (Or.inl rfl)

omit [SemilatticeSup D] [OrderBot D] in
/-- A call that closes the room or opens another incarnation. -/
theorem of_other (hepoch : r.runtime.persisted.epoch ≤ r'.runtime.persisted.epoch)
    (hstate : r'.runtime.persisted.active = true → r'.runtime.state ≠ .closed)
    (h : r'.runtime.persisted.active = false ∨
      r.runtime.persisted.epoch < r'.runtime.persisted.epoch) : KeepsParticipants gone r r' where
  epoch := hepoch
  notClosed _ := hstate
  kept hsame hactive := by
    rcases h with h | h
    · simp [h] at hactive
    · omega

end KeepsParticipants

variable {cfg : RoomConfig D} {r : Room D} {now : Time} {deviceId userId : String}
  {gone : Option String}

omit [SemilatticeSup D] [OrderBot D] in
theorem keepsParticipants_withParticipant (participant : Participant) :
    KeepsParticipants gone r (r.withParticipant participant) where
  epoch := le_rfl
  notClosed hr := hr
  kept _ hactive := by
    refine ⟨hactive, fun deviceId _ hsome => ?_⟩
    simp only [Room.withParticipant, Table.get?_set]
    split
    · rfl
    · exact hsome

theorem keepsParticipants_join {file : StoredFile} {connection : ℕ} :
    KeepsParticipants gone r (r.join cfg now file deviceId userId connection).room := by
  have hlease : KeepsParticipants gone r
      ((r.extendLease cfg now deviceId).welcomeBack deviceId) :=
    .of_eq rfl rfl rfl (Or.inr (by simp [Room.extendLease, Room.welcomeBack, Room.saveRuntime]))
  rcases r.join_cases with ⟨e, hroom⟩ | ⟨role, joined, rfl, hroom⟩ <;> rw [hroom]
  · exact hlease
  · exact hlease.trans (keepsParticipants_withParticipant _)

/-- Joining opens the room, whatever its state was. -/
theorem state_join {file : StoredFile} {connection : ℕ} :
    (r.join cfg now file deviceId userId connection).room.runtime.state = .active := by
  rcases r.join_cases with ⟨e, hroom⟩ | ⟨role, joined, rfl, hroom⟩ <;> rw [hroom] <;> rfl

theorem keepsParticipants_promote {clientID connection : ℕ} :
    KeepsParticipants gone r
      (r.promote cfg now clientID deviceId userId connection).room := by
  rcases r.promote_cases with ⟨hroom, -⟩ | ⟨file, -, -, hpromote⟩
  · rw [hroom]
    exact .refl r
  · rw [hpromote]
    split
    · have hepoch : r.runtime.persisted.epoch
          < (r.activate cfg now clientID file deviceId).runtime.persisted.epoch := by
        simp only [Room.activate, Room.saveRuntime]
        split <;> omega
      have hjoin : KeepsParticipants gone (r.activate cfg now clientID file deviceId)
          ((r.activate cfg now clientID file deviceId).join cfg now file deviceId userId
            connection).room := keepsParticipants_join
      refine .of_other (hepoch.le.trans hjoin.epoch) (fun _ => ?_)
        (Or.inr (hepoch.trans_le hjoin.epoch))
      rw [state_join]
      simp
    · exact keepsParticipants_join

theorem keepsParticipants_acceptUpdate {busy : RoomSink → Bool} {participant : Participant}
    {updateId : ℕ} {update : D} :
    KeepsParticipants gone r
      (r.acceptUpdate cfg busy now participant userId updateId update).room := by
  unfold Room.acceptUpdate
  dsimp only
  split <;> exact .of_eq rfl rfl rfl (Or.inl rfl)

theorem keepsParticipants_handleUpdate {busy : RoomSink → Bool} {roomEpoch updateId : ℕ}
    {update : D} :
    KeepsParticipants gone r
      (r.handleUpdate cfg busy now deviceId userId roomEpoch updateId update).room := by
  rcases r.handleUpdate_cases with hroom | ⟨participant, -, -, -, hroom | hallowed⟩
  · rw [hroom]
    exact .refl r
  · rw [hroom]
    exact keepsParticipants_withParticipant _
  · rw [Room.handleUpdate_of_allowed hallowed]
    exact (keepsParticipants_withParticipant _).trans keepsParticipants_acceptUpdate

theorem keepsParticipants_flush {busy : RoomSink → Bool} {uuid : Uuid} {t : Room D}
    (hflush : Room.FlushOf cfg busy now uuid r t) : KeepsParticipants gone r t := by
  have hdemoted : ∀ reason, KeepsParticipants gone r
      (r.demoteLocked cfg busy now uuid reason).room := by
    intro reason
    rcases r.demoteLocked_cases with
      ⟨-, hroom⟩ | ⟨-, ⟨data, -, -, hroom⟩ | ⟨answer, data, -, hroom⟩⟩ <;> rw [hroom]
    · exact .refl r
    · exact .of_eq rfl rfl rfl (Or.inl rfl)
    · refine .of_other le_rfl ?_ (Or.inl rfl)
      intro hactive
      exact absurd hactive Bool.false_ne_true
  rcases hflush with rfl | ⟨reason, rfl | ⟨-, -, rfl⟩⟩
  · exact .refl _
  · exact hdemoted reason
  · exact (hdemoted reason).trans (.of_eq rfl rfl rfl (Or.inr (by simp)))

omit [SemilatticeSup D] [OrderBot D] in
/-- Only the participant that is removed is gone. -/
theorem keepsParticipants_removeParticipant (participant : Participant) :
    KeepsParticipants (some participant.deviceId) r (r.removeParticipant participant) := by
  have hkept : ∀ other, some other ≠ some participant.deviceId →
      (r.runtime.participants.get? other).isSome →
      ((r.runtime.participants.erase participant.deviceId).get? other).isSome := by
    intro other hne hsome
    rw [Table.get?_erase, if_neg fun h => hne (by rw [h])]
    exact hsome
  unfold Room.removeParticipant Room.scheduleClosingIfEmpty
  split
  · exact ⟨le_rfl, fun _ _ => by simp, fun _ hactive => ⟨hactive, hkept⟩⟩
  · exact ⟨le_rfl, fun hr => hr, fun _ hactive => ⟨hactive, hkept⟩⟩

theorem keepsParticipants_heartbeat {roomEpoch : ℕ} :
    KeepsParticipants gone r (r.heartbeat cfg now deviceId roomEpoch).room := by
  rcases r.heartbeat_cases with hroom | ⟨-, hroom⟩ <;> rw [hroom]
  · exact .refl r
  · exact .of_eq rfl rfl rfl (Or.inl rfl)

omit [SemilatticeSup D] [OrderBot D] in
theorem keepsParticipants_leave {roomEpoch : ℕ} :
    KeepsParticipants (some deviceId) r (r.leave deviceId roomEpoch).room := by
  rcases r.leave_cases with hroom | ⟨participant, hparticipant, hroom⟩ <;> rw [hroom]
  · exact .refl r
  · obtain rfl : participant.deviceId = deviceId := Table.key_of_get? hparticipant
    exact keepsParticipants_removeParticipant participant

omit [SemilatticeSup D] [OrderBot D] in
theorem keepsParticipants_disconnect :
    KeepsParticipants (some deviceId) r (r.disconnect deviceId) := by
  rcases r.disconnect_cases with ⟨-, hroom⟩ | ⟨participant, hparticipant, hroom⟩ <;> rw [hroom]
  · exact .refl r
  · obtain rfl : participant.deviceId = deviceId := Table.key_of_get? hparticipant
    exact keepsParticipants_removeParticipant participant

theorem keepsParticipants_restoreHistoryVersion {busy : RoomSink → Bool} {uuid : Uuid}
    {clientID versionId : ℕ} {requestId : String} :
    KeepsParticipants gone r (r.restoreHistoryVersion cfg busy now uuid clientID deviceId userId
      versionId requestId).room := by
  rcases r.restoreHistoryVersion_cases with
    hroom | ⟨file, version, -, -, ⟨data, -, -, hroom⟩ | ⟨answer, data, -, hroom⟩⟩ <;> rw [hroom]
  · exact .refl r
  · exact .of_eq rfl rfl rfl (Or.inl rfl)
  · exact .of_eq rfl rfl rfl (Or.inl rfl)

/-- The device an event takes out of its room. -/
def RoomEvent.leaving : RoomEvent D → Option String
  | .leave deviceId _ | .disconnect deviceId => some deviceId
  | _ => none

/-- **A call takes no participant out of a room that stays open**, but for the device that
leaves. -/
theorem keepsParticipants_room (r : Room D) (e : RoomEvent D) :
    KeepsParticipants e.leaving r (e.room cfg r) := by
  cases e with
  | layer1 | restart => exact .refl r
  | promote => exact keepsParticipants_promote
  | handleUpdate => exact keepsParticipants_handleUpdate
  | handleSync deviceId roomEpoch stateVector =>
    have hroom := r.handleSync_room cfg deviceId roomEpoch stateVector
    simp only [RoomEvent.room, hroom]
    exact .refl r
  | heartbeat => exact keepsParticipants_heartbeat
  | leave => exact keepsParticipants_leave
  | disconnect => exact keepsParticipants_disconnect
  | demote => exact keepsParticipants_flush (Room.flushOf_demote _)
  | closeDeleted =>
    simp only [RoomEvent.room, Room.closeDeleted, Room.closeWithoutFlush]
    split
    · refine .of_other le_rfl ?_ (Or.inl rfl)
      intro hactive
      exact absurd hactive Bool.false_ne_true
    · exact .refl r
  | closingTimer => exact keepsParticipants_flush Room.flushOf_closingTimer
  | sweepExpired => exact keepsParticipants_flush Room.flushOf_sweepExpired
  | closeAll => exact keepsParticipants_flush Room.flushOf_closeAll
  | compact => exact .of_eq rfl rfl rfl (Or.inl rfl)
  | restoreHistoryVersion => exact keepsParticipants_restoreHistoryVersion

/-! ### Promotions -/

/-- Sockets are promoted into rooms in memory, and stay in them. -/
structure PromotionsKept (s : ConnectedServer D) : Prop where
  rooms : ∀ promotion ∈ s.promotions, ∃ runtime,
    (s.sync.rooms promotion.note).runtime = some runtime ∧
      promotion.roomEpoch ≤ runtime.persisted.epoch
  hellos : ∀ promotion ∈ s.promotions, (s.connections promotion.connection).isSome
  notClosed : ∀ note runtime, (s.sync.rooms note).runtime = some runtime →
    runtime.persisted.active = true → runtime.state ≠ .closed
  participants : ∀ connection claims note runtime, Promoted s connection claims note runtime →
    (runtime.participants.get? claims.deviceId).isSome

omit [SemilatticeSup D] [OrderBot D] in
theorem PromotionsKept.keptIn {s : ConnectedServer D} (h : PromotionsKept s) : KeptIn s := by
  intro connection claims note runtime hpromoted
  refine ⟨Option.isSome_iff_exists.mp (h.participants _ _ _ _ hpromoted), ?_⟩
  exact Room.rejectIfStale_eq_none_iff.mpr
    ⟨hpromoted.active, rfl, h.notClosed note runtime hpromoted.inMemory hpromoted.active⟩

/-- The room of a note after a call on it: what the call makes of the room in memory, or of
the one it loads. -/
theorem runtime_syncStep (cfg : RoomConfig D) (s : SyncServer D) (vaultId fileId : String)
    {e : RoomEvent D} (hrestart : e ≠ .restart) :
    ((syncStep cfg s (.room vaultId fileId e)).rooms (vaultId, fileId)).runtime
        = (s.rooms (vaultId, fileId)).runtime ∨
      ((syncStep cfg s (.room vaultId fileId e)).rooms (vaultId, fileId)).runtime
        = some (e.room (cfg.ofNote vaultId fileId)
            (s.room vaultId fileId).materialize).runtime := by
  have hrooms : ((syncStep cfg s (.room vaultId fileId e)).rooms (vaultId, fileId)).runtime
      = (roomStep (cfg.ofNote vaultId fileId) (s.room vaultId fileId) e).runtime := by
    simp [syncStep]
  rw [hrooms]
  cases hfinds : e.finds (s.room vaultId fileId) with
  | none =>
    rcases roomStep_of_finds_none (cfg.ofNote vaultId fileId) hfinds with ⟨event, rfl⟩ | rfl | hsame
    · exact Or.inl rfl
    · exact absurd rfl hrestart
    · rw [hsame]
      exact Or.inl rfl
  | some r =>
    rw [roomStep_of_finds hfinds, ← materialize_of_finds hfinds]
    exact Or.inr rfl

/-- A room that is loaded is not closed while it is active. -/
theorem notClosed_loadRuntime (store : YjsRoomStore D)
    (hactive : (loadRuntime store).persisted.active = true) :
    (loadRuntime store).state ≠ .closed := by
  have hpersisted : (store.room.getD emptyRoom).active = true := hactive
  simp [loadRuntime, hpersisted]

section Steps

variable {s : ConnectedServer D} {vaultId fileId : String} {e : RoomEvent D}

/-- A call on a room keeps the promotions but those of the device that leaves. -/
theorem promotionsKept_room (h : PromotionsKept s) (hrestart : e ≠ .restart)
    {promotions : List Promotion} (hsubset : promotions ⊆ s.promotions)
    (hstays : ∀ promotion ∈ promotions, promotion.note = (vaultId, fileId) →
      ∀ claims, s.connections promotion.connection = some claims →
        some claims.deviceId ≠ e.leaving) :
    PromotionsKept { s with sync := syncStep cfg s.sync (.room vaultId fileId e), promotions } := by
  -- the room before the call, in memory or not
  obtain ⟨r, hr⟩ : ∃ r, (s.sync.room vaultId fileId).materialize = r := ⟨_, rfl⟩
  have hkeeps : KeepsParticipants e.leaving r (e.room (cfg.ofNote vaultId fileId) r) :=
    keepsParticipants_room r e
  have hmemory : ∀ runtime, (s.sync.rooms (vaultId, fileId)).runtime = some runtime →
      r.runtime = runtime := by
    intro runtime hruntime
    rw [← hr]
    simp [RoomServer.materialize, SyncServer.room, hruntime]
  have hr_notClosed : r.runtime.persisted.active = true → r.runtime.state ≠ .closed := by
    cases hruntime : (s.sync.rooms (vaultId, fileId)).runtime with
    | some runtime =>
      rw [hmemory runtime hruntime]
      exact h.notClosed _ _ hruntime
    | none =>
      have hload : r.runtime = loadRuntime (s.sync.rooms (vaultId, fileId)).roomStore := by
        rw [← hr]
        simp [RoomServer.materialize, SyncServer.room, hruntime]
      rw [hload]
      exact notClosed_loadRuntime _
  have hother : ∀ note, note ≠ (vaultId, fileId) →
      (syncStep cfg s.sync (.room vaultId fileId e)).rooms note = s.sync.rooms note := by
    intro note hnote
    simp [syncStep, Function.update_of_ne hnote]
  have hafter := runtime_syncStep cfg s.sync vaultId fileId hrestart
  rw [hr] at hafter
  constructor
  · intro promotion hpromotion
    obtain ⟨runtime, hruntime, hepoch⟩ := h.rooms promotion (hsubset hpromotion)
    by_cases hnote : promotion.note = (vaultId, fileId)
    · rw [hnote] at hruntime ⊢
      rcases hafter with hsame | hroom
      · exact ⟨runtime, hsame.trans hruntime, hepoch⟩
      · rw [← hmemory runtime hruntime] at hepoch
        exact ⟨_, hroom, hepoch.trans hkeeps.epoch⟩
    · exact ⟨runtime, by rw [hother _ hnote]; exact hruntime, hepoch⟩
  · exact fun promotion hpromotion => h.hellos promotion (hsubset hpromotion)
  · intro note runtime hruntime hactive
    by_cases hnote : note = (vaultId, fileId)
    · subst hnote
      rcases hafter with hsame | hroom
      · exact h.notClosed _ _ (hsame.symm.trans hruntime) hactive
      · obtain rfl := Option.some.inj (hroom.symm.trans hruntime)
        exact hkeeps.notClosed hr_notClosed hactive
    · rw [hother note hnote] at hruntime
      exact h.notClosed note runtime hruntime hactive
  · intro connection claims note runtime hpromoted
    have hmem := hpromoted.promotion
    have hold := h.rooms _ (hsubset hmem)
    by_cases hnote : note = (vaultId, fileId)
    · subst hnote
      obtain ⟨before, hbefore, hepoch⟩ := hold
      have hsame_before : ∀ (hsame : before.persisted.epoch = runtime.persisted.epoch),
          before.persisted.active = true →
          (before.participants.get? claims.deviceId).isSome := by
        intro hsame hactive
        refine h.participants connection claims _ before
          ⟨hpromoted.hello, hpromoted.isOpen, hbefore, hactive, ?_⟩
        rw [hsame]
        exact hsubset hmem
      rcases hafter with hsame | hroom
      · obtain rfl := Option.some.inj (hbefore.symm.trans (hsame.symm.trans hpromoted.inMemory))
        exact hsame_before rfl hpromoted.active
      · obtain rfl := Option.some.inj (hroom.symm.trans hpromoted.inMemory)
        rw [← hmemory before hbefore] at hepoch hsame_before
        have hsame := le_antisymm hepoch hkeeps.epoch
        obtain ⟨hactive, hkept⟩ := hkeeps.kept hsame hpromoted.active
        exact hkept claims.deviceId (hstays _ hmem rfl claims hpromoted.hello)
          (hsame_before hsame.symm hactive)
    · refine h.participants connection claims note runtime
        ⟨hpromoted.hello, hpromoted.isOpen, ?_, hpromoted.active, hsubset hmem⟩
      have hmemory' := hpromoted.inMemory
      rw [hother note hnote] at hmemory'
      exact hmemory'

/-- Whoever joined is a participant. -/
theorem participant_of_join {file : StoredFile} {connection : ℕ} {message : RoomMessage D}
    (h : (r.join cfg now file deviceId userId connection).result = .ok message) :
    ((r.join cfg now file deviceId userId connection).room.runtime.participants.get?
      deviceId).isSome := by
  rcases r.join_cases with ⟨e, hjoin⟩ | ⟨role, joined, rfl, hjoin⟩
  · rw [hjoin] at h
    simp at h
  · rw [hjoin]
    simp [Room.withParticipant, Room.newParticipant]

/-- Whoever was promoted is a participant. -/
theorem participant_of_promote {clientID connection : ℕ} {message : RoomMessage D}
    (h : (r.promote cfg now clientID deviceId userId connection).result = .ok message) :
    ((r.promote cfg now clientID deviceId userId connection).room.runtime.participants.get?
      deviceId).isSome := by
  rcases r.promote_cases with ⟨-, -, e, he⟩ | ⟨file, -, -, hpromote⟩
  · rw [he] at h
    simp at h
  · rw [hpromote] at h ⊢
    exact participant_of_join h

/-- The socket that was promoted is kept in its room from then on. -/
theorem promotionsKept_promote (h : PromotionsKept s) {connection : ℕ} {claims : Connection}
    (hclaims : s.connections connection = some claims) (now : Time) (clientID : ℕ)
    (fileId : String) :
    PromotionsKept (connectionStep cfg s (.promote connection now clientID fileId)) := by
  have hkept : PromotionsKept { s with
      sync := syncStep cfg s.sync (.room claims.vaultId fileId
        (.promote now clientID claims.deviceId claims.userId connection))
      promotions := s.promotions } :=
    promotionsKept_room h (by simp) (List.Subset.refl _)
      (fun _ _ _ _ _ => by simp [RoomEvent.leaving])
  simp only [connectionStep, hclaims]
  obtain ⟨outcome, houtcome⟩ : ∃ outcome,
      (s.sync.room claims.vaultId fileId).materialize.promote (cfg.ofNote claims.vaultId fileId) now
        clientID claims.deviceId claims.userId connection = outcome := ⟨_, rfl⟩
  rw [houtcome]
  cases hresult : outcome.result with
  | error e => exact hkept
  | ok message =>
    have hroom : ((syncStep cfg s.sync (.room claims.vaultId fileId
        (.promote now clientID claims.deviceId claims.userId connection))).rooms
          (claims.vaultId, fileId)).runtime = some outcome.room.runtime := by
      rw [← houtcome]
      simp [syncStep, roomStep, Room.server]
    have hparticipant : (outcome.room.runtime.participants.get? claims.deviceId).isSome := by
      rw [← houtcome] at hresult ⊢
      exact participant_of_promote hresult
    constructor
    · intro promotion hpromotion
      rcases List.mem_append.mp hpromotion with hold | hnew
      · exact hkept.rooms promotion hold
      · obtain rfl := List.mem_singleton.mp hnew
        exact ⟨_, hroom, le_rfl⟩
    · intro promotion hpromotion
      rcases List.mem_append.mp hpromotion with hold | hnew
      · exact hkept.hellos promotion hold
      · obtain rfl := List.mem_singleton.mp hnew
        exact Option.isSome_iff_exists.mpr ⟨claims, hclaims⟩
    · exact hkept.notClosed
    · intro other claims' note runtime hpromoted
      rcases List.mem_append.mp hpromoted.promotion with hold | hnew
      · exact hkept.participants other claims' note runtime ⟨hpromoted.hello, hpromoted.isOpen,
          hpromoted.inMemory, hpromoted.active, hold⟩
      · obtain ⟨rfl, rfl, -⟩ := Promotion.mk.inj (List.mem_singleton.mp hnew)
        obtain rfl := Option.some.inj (hclaims.symm.trans hpromoted.hello)
        obtain rfl := Option.some.inj (hroom.symm.trans hpromoted.inMemory)
        exact hparticipant

omit [SemilatticeSup D] [OrderBot D] in
theorem runtime_disconnect {t : SyncServer D} {note : String × String} {runtime : RuntimeRoom D} :
    ((t.disconnect deviceId).rooms note).runtime = some runtime ↔
      ∃ before, (t.rooms note).runtime = some before ∧
        (Room.disconnect { data := t.data, roomStore := (t.rooms note).roomStore
                           runtime := before } deviceId).runtime = runtime := by
  simp [SyncServer.disconnect]

omit [SemilatticeSup D] [OrderBot D] in
/-- A close takes its device out of all rooms, and leaves the rest of them. -/
theorem disconnect_spec (r : Room D) (deviceId : String) :
    (r.disconnect deviceId).runtime.persisted = r.runtime.persisted ∧
      ((r.runtime.persisted.active = true → r.runtime.state ≠ .closed) →
        r.runtime.persisted.active = true → (r.disconnect deviceId).runtime.state ≠ .closed) ∧
      ∀ other, (r.disconnect deviceId).runtime.participants.get? other
        = if other = deviceId then none else r.runtime.participants.get? other := by
  rcases r.disconnect_cases with ⟨hnone, hroom⟩ | ⟨participant, hsome, hroom⟩ <;> rw [hroom]
  · refine ⟨rfl, fun h => h, fun other => ?_⟩
    split
    · next hsame => rw [hsame, hnone]
    · rfl
  · obtain rfl : participant.deviceId = deviceId := Table.key_of_get? hsome
    have herase := Table.get?_erase r.runtime.participants participant.deviceId
    unfold Room.removeParticipant Room.scheduleClosingIfEmpty
    split
    · exact ⟨rfl, fun _ _ => by simp, herase⟩
    · exact ⟨rfl, fun h => h, herase⟩

/-- A close keeps the promotions of other devices, and of the device of the socket if it has
none through another one. -/
theorem promotionsKept_close (h : PromotionsKept s) {connection : ℕ}
    (hlast : LastSocket s (.close connection)) :
    PromotionsKept (connectionStep cfg s (.close connection)) := by
  have hopen : ∀ {other}, other ∉ s.closed ++ [connection] → other ∉ s.closed ∧
      other ≠ connection := by
    intro other hother
    simpa using hother
  cases hclaims : s.connections connection with
  | none =>
    simp only [connectionStep, hclaims]
    refine ⟨h.rooms, h.hellos, h.notClosed, ?_⟩
    intro other claims' note runtime hpromoted
    exact h.participants other claims' note runtime ⟨hpromoted.hello,
      (hopen hpromoted.isOpen).1, hpromoted.inMemory, hpromoted.active, hpromoted.promotion⟩
  | some claims =>
    simp only [connectionStep, hclaims]
    constructor
    · intro promotion hpromotion
      obtain ⟨before, hbefore, hepoch⟩ := h.rooms promotion hpromotion
      refine ⟨_, runtime_disconnect.mpr ⟨before, hbefore, rfl⟩, ?_⟩
      rw [(disconnect_spec _ _).1]
      exact hepoch
    · exact h.hellos
    · intro note runtime hruntime hactive
      obtain ⟨before, hbefore, rfl⟩ := runtime_disconnect.mp hruntime
      rw [(disconnect_spec _ _).1] at hactive
      exact (disconnect_spec _ _).2.1 (h.notClosed note before hbefore) hactive
    · intro other claims' note runtime hpromoted
      obtain ⟨before, hbefore, rfl⟩ := runtime_disconnect.mp hpromoted.inMemory
      obtain ⟨hstill, hne⟩ := hopen hpromoted.isOpen
      have hpersisted : (Room.disconnect { data := s.sync.data
                                           roomStore := (s.sync.rooms note).roomStore
                                           runtime := before } claims.deviceId).runtime.persisted
          = before.persisted := (disconnect_spec _ _).1
      have hactive := hpromoted.active
      have hpromotion := hpromoted.promotion
      rw [hpersisted] at hactive hpromotion
      have hpromoted' : Promoted s other claims' note before :=
        ⟨hpromoted.hello, hstill, hbefore, hactive, hpromotion⟩
      have hdevice : claims'.deviceId ≠ claims.deviceId := fun hsame =>
        (hlast connection claims rfl hclaims).2 other claims' note before hne hsame hpromoted'
      have hkept := h.participants other claims' note before hpromoted'
      rw [(disconnect_spec _ _).2.2, if_neg hdevice]
      exact hkept

/-- **The messages of sockets keep the promoted ones in their rooms**, and so do closes of the
last socket of a device. -/
theorem promotionsKept_connectionStep (h : PromotionsKept s) {e : ConnectionEvent D}
    (hlast : LastSocket s e) : PromotionsKept (connectionStep cfg s e) := by
  cases e with
  | hello connection claims =>
    cases hhello : s.connections connection with
    | some _ =>
      simp only [connectionStep, hhello, Option.isSome_some, if_true]
      exact h
    | none =>
      simp only [connectionStep, hhello, Option.isSome_none, Bool.false_eq_true, if_false]
      -- what was promoted had said hello before
      have hold : ∀ promotion ∈ s.promotions, Function.update s.connections connection (some claims)
          promotion.connection = s.connections promotion.connection := by
        intro promotion hpromotion
        refine Function.update_of_ne (fun hsame => ?_) _ _
        have hsome := h.hellos promotion hpromotion
        simp [hsame, hhello] at hsome
      refine ⟨h.rooms, ?_, h.notClosed, ?_⟩
      · intro promotion hpromotion
        exact (congrArg Option.isSome (hold promotion hpromotion)).trans
          (h.hellos promotion hpromotion)
      · intro other claims' note runtime hpromoted
        exact h.participants other claims' note runtime
          ⟨(hold _ hpromoted.promotion).symm.trans hpromoted.hello, hpromoted.isOpen,
            hpromoted.inMemory, hpromoted.active, hpromoted.promotion⟩
  | promote connection now clientID fileId =>
    cases hclaims : s.connections connection with
    | none =>
      simp only [connectionStep, hclaims]
      exact h
    | some claims => exact promotionsKept_promote h hclaims now clientID fileId
  | handleUpdate connection now fileId roomEpoch updateId update =>
    cases hclaims : s.connections connection with
    | none =>
      simp only [connectionStep, hclaims]
      exact h
    | some claims =>
      simp only [connectionStep, hclaims]
      exact promotionsKept_room h (by simp) (List.Subset.refl _)
        (fun _ _ _ _ _ => by simp [RoomEvent.leaving])
  | leave connection fileId roomEpoch =>
    cases hclaims : s.connections connection with
    | none =>
      simp only [connectionStep, hclaims]
      exact h
    | some claims =>
      simp only [connectionStep, hclaims]
      refine promotionsKept_room h (by simp) List.filter_sublist.subset ?_
      intro promotion hpromotion hnote claims' hclaims' hsame
      have hdevice : claims'.deviceId = claims.deviceId := by
        simpa [RoomEvent.leaving] using hsame
      have hfilter := (List.mem_filter.mp hpromotion).2
      simp [hnote, hclaims', hdevice] at hfilter
  | close connection => exact promotionsKept_close h hlast
  | server event =>
    simp only [connectionStep]
    split
    · next hserver =>
      cases event with
      | server event =>
        refine ⟨h.rooms, h.hellos, h.notClosed, ?_⟩
        intro connection claims note runtime hpromoted
        exact h.participants connection claims note runtime ⟨hpromoted.hello, hpromoted.isOpen,
          hpromoted.inMemory, hpromoted.active, hpromoted.promotion⟩
      | room vaultId fileId event =>
        have hleaving : event.leaving = none := by
          cases event <;> first | rfl | simp [ofServer] at hserver
        have hrestart : event ≠ .restart := by
          rintro rfl
          simp [ofServer] at hserver
        exact promotionsKept_room h hrestart (List.Subset.refl _)
          (fun _ _ _ _ _ => by simp [hleaving])
    · exact h
  | restart =>
    refine ⟨by simp [connectionStep], by simp [connectionStep], by simp [connectionStep], ?_⟩
    intro connection claims note runtime hpromoted
    simpa [connectionStep] using hpromoted.promotion

/-- A close takes out the participants of its device, whatever socket they have. -/
theorem closesOwn_of_lastSocket {e : ConnectionEvent D} (hlast : LastSocket s e) :
    ClosesOwn cfg s e := by
  rintro connection rfl note runtime participant hruntime hparticipant hne
  cases hclaims : s.connections connection with
  | none =>
    simp only [connectionStep, hclaims]
    exact ⟨runtime, hruntime, hparticipant⟩
  | some claims =>
    simp only [connectionStep, hclaims]
    have hdevice : participant.deviceId ≠ claims.deviceId := by
      intro hsame
      rw [hsame] at hparticipant
      exact hne ((hlast connection claims rfl hclaims).1 note runtime participant hruntime
        hparticipant)
    refine ⟨_, runtime_disconnect.mpr ⟨runtime, hruntime, rfl⟩, ?_⟩
    rw [(disconnect_spec _ _).2.2, if_neg hdevice]
    exact hparticipant

/-- A close that only affects its own participation is that of the last socket. -/
theorem lastSocket_of_closesOwn {e : ConnectionEvent D} (hown : ClosesOwn cfg s e)
    (hkept : KeptIn (connectionStep cfg s e)) : LastSocket s e := by
  rintro connection claims rfl hclaims
  have hgone : ∀ note runtime participant,
      ((connectionStep cfg s (.close connection)).sync.rooms note).runtime = some runtime →
      runtime.participants.get? claims.deviceId ≠ some participant := by
    intro note runtime participant hruntime
    simp only [connectionStep, hclaims] at hruntime
    obtain ⟨before, -, rfl⟩ := runtime_disconnect.mp hruntime
    rw [(disconnect_spec _ _).2.2, if_pos rfl]
    simp
  constructor
  · intro note runtime participant hruntime hparticipant
    obtain hdevice : participant.deviceId = claims.deviceId := Table.key_of_get? hparticipant
    by_contra hne
    obtain ⟨after, hafter, hstays⟩ := hown connection rfl note runtime participant hruntime
      (by rw [hdevice]; exact hparticipant) hne
    rw [hdevice] at hstays
    exact hgone note after participant hafter hstays
  · intro other claims' note runtime hne hdevice hpromoted
    -- the other socket is still open after the close, and was promoted
    have hafter : ((connectionStep cfg s (.close connection)).sync.rooms note).runtime
        = some (Room.disconnect { data := s.sync.data
                                  roomStore := (s.sync.rooms note).roomStore
                                  runtime } claims.deviceId).runtime := by
      simp only [connectionStep, hclaims]
      exact runtime_disconnect.mpr ⟨runtime, hpromoted.inMemory, rfl⟩
    have hpersisted : (Room.disconnect { data := s.sync.data
                                         roomStore := (s.sync.rooms note).roomStore
                                         runtime } claims.deviceId).runtime.persisted
        = runtime.persisted := (disconnect_spec _ _).1
    obtain ⟨⟨participant, hparticipant⟩, -⟩ := hkept other claims' note _
      { hello := by simpa only [connectionStep, hclaims] using hpromoted.hello
        isOpen := by simpa [connectionStep, hclaims, hne] using hpromoted.isOpen
        inMemory := hafter
        active := by rw [hpersisted]; exact hpromoted.active
        promotion := by
          rw [hpersisted]
          simpa only [connectionStep, hclaims] using hpromoted.promotion }
    rw [hdevice] at hparticipant
    exact hgone note _ participant hafter hparticipant

end Steps

/-! ### Runs -/

omit [SemilatticeSup D] [OrderBot D] in
theorem promotionsKept_initial (data : Store) :
    PromotionsKept ({ sync := { data } } : ConnectedServer D) := by
  refine ⟨by simp, by simp, by simp, ?_⟩
  intro connection claims note runtime hpromoted
  simpa using hpromoted.promotion

/-- **Closing a socket affects its own participation only as long as no device has two.**
From a server without sockets, all closes are of this kind and all devices with an open
socket that was promoted take part in its room, exactly in the runs in which a socket that is
closed is the last one its device takes part in rooms with. -/
theorem closesOwn_iff_lastSocket (cfg : RoomConfig D) (data : Store)
    (es : List (ConnectionEvent D)) :
    (Run.EachStep (connectionStep cfg) (ClosesOwn cfg) { sync := { data } } es ∧
      Run.Throughout (connectionStep cfg) KeptIn { sync := { data } } es) ↔
      Run.EachStep (connectionStep cfg) LastSocket { sync := { data } } es := by
  have hiff : Run.EachStep (connectionStep cfg) (ClosesOwn cfg) { sync := { data } } es →
      (Run.Throughout (connectionStep cfg) KeptIn { sync := { data } } es ↔
        Run.EachStep (connectionStep cfg) LastSocket { sync := { data } } es) :=
    Run.throughout_iff_of_breaks (G := PromotionsKept) (fun _ h => h.keptIn)
      (fun _ _ h _ hlast => promotionsKept_connectionStep h hlast)
      (fun _ _ _ hown hkept => lastSocket_of_closesOwn hown hkept) (promotionsKept_initial data)
  constructor
  · rintro ⟨hown, hkept⟩
    exact (hiff hown).mp hkept
  · intro hlast
    have hown := hlast.mono (D := ClosesOwn cfg) fun _ _ => closesOwn_of_lastSocket
    exact ⟨hown, (hiff hown).mpr hlast⟩

end

/-! ### A device that comes back -/

/-- The device as its sockets say hello. -/
def sampleConnected : Connection := { vaultId := "v", deviceId := "d2", userId := "u" }

/-- A device opens a note, comes back on another socket and opens it again, and only then does
the server handle the close of the first socket. -/
def sampleReturn : List (ConnectionEvent (Finset Write)) :=
  [.server (.server (.process 1 sampleUuid (sampleContentOp .create "o1" "d1" "f1" 1 (some "a.md")
      (sampleVV "d1" 1) "one") (some "u"))),
    .hello 1 sampleConnected, .promote 1 2 7 "f1", .hello 2 sampleConnected, .promote 2 3 7 "f1",
    .close 1]

/-- The close takes the device out of the room that it takes part in through its new socket. -/
theorem not_closesOwn_return :
    ¬ (Run.EachStep (connectionStep sampleRoom) (ClosesOwn sampleRoom)
        { sync := { data := sampleStore } } sampleReturn ∧
      Run.Throughout (connectionStep sampleRoom) KeptIn { sync := { data := sampleStore } }
        sampleReturn) := by
  rintro ⟨-, h⟩
  obtain ⟨final, hfinal⟩ : ∃ final, Run.final (connectionStep sampleRoom)
      { sync := { data := sampleStore } } sampleReturn = final := ⟨_, rfl⟩
  have hkept := hfinal ▸ h.final
  have hroom : (final.sync.rooms ("v", "f1")).runtime.map (fun runtime =>
      (runtime.persisted.epoch, runtime.persisted.active,
        (runtime.participants.get? "d2").isSome)) = some (1, true, false) := by
    rw [← hfinal]
    decide +kernel
  have hsocket : final.connections 2 = some sampleConnected ∧ 2 ∉ final.closed ∧
      { connection := 2, note := ("v", "f1"), roomEpoch := 1 } ∈ final.promotions := by
    rw [← hfinal]
    decide +kernel
  obtain ⟨runtime, hruntime, hruntime'⟩ := Option.map_eq_some_iff.mp hroom
  simp only [Prod.mk.injEq] at hruntime'
  obtain ⟨⟨participant, hparticipant⟩, -⟩ := hkept 2 sampleConnected ("v", "f1") runtime
    { hello := hsocket.1, isOpen := hsocket.2.1, inMemory := hruntime, active := hruntime'.2.1
      promotion := by rw [hruntime'.1]; exact hsocket.2.2 }
  have hparticipant : runtime.participants.get? "d2" = some participant := hparticipant
  simp [hparticipant] at hruntime'

end ObsidianSync
