import ObsidianSync.Room.Calls
import ObsidianSync.Room.HandOff

/-!
# Updates that cannot be read

A participant sends the bytes of an update.  `handleUpdate` stores them first and merges
them then, and merging throws where the bytes are not an update.

The rows of the update table are kept in two lists here: those that hold an update are the
ones of the room store, and the others are `malformed`.

## Main definitions

* `RawServer`, `RawEvent`, `rawStep` — the room with such rows, and the calls.
* `Loadable` — the stored room can be loaded and is the one in memory.
* `UpdatesReadable` — the bytes that pass the checks of `handleUpdate` are an update.

## Main results

* `distinctSeqs_roomStep` — the calls number the updates of an incarnation one by one.
* `loadable_iff_updatesReadable` — a room stays loadable as long as all bytes that are
  stored are updates.
-/

namespace ObsidianSync

/-- The server, with the rows of the update table that Yjs cannot read. -/
structure RawServer (D : Type) where
  server : RoomServer D
  malformed : List (StoredYjsUpdate Bytes) := []

/-- What an update call throws. -/
inductive UpdateFailure
  | failure (error : Failure)
  /-- `Y.applyUpdate` throws. -/
  | unreadable
  deriving DecidableEq

/-- A call on the room: an update as it comes from a participant, or another one. -/
inductive RawEvent (D : Type)
  | handleUpdate (now : Time) (deviceId userId : String) (roomEpoch updateId : ℕ)
      (update : Bytes)
  | call (event : RoomEvent D)

section

variable {D : Type} [SemilatticeSup D] [OrderBot D]

namespace RawServer

variable (s : RawServer D)

/-- The stored room. -/
def persisted : PersistedYjsRoom D := s.server.roomStore.room.getD emptyRoom

/-- The rows `loadRuntime` cannot merge. -/
def unreadable : List (StoredYjsUpdate Bytes) :=
  if s.persisted.seeded then
    s.malformed.filter fun update =>
      update.roomEpoch = s.persisted.epoch ∧ update.seq > s.persisted.compactedThroughSeq
  else []

/-- `loadRuntime`; none where it throws. -/
def load : Option (RuntimeRoom D) :=
  if s.unreadable.isEmpty then some (loadRuntime s.server.roomStore) else none

/-- The room in memory, or loaded; none where that throws. -/
def materialize : Option (Room D) :=
  if s.server.runtime.isNone && s.load.isNone then none else some s.server.materialize

/-- The server with the room in memory. -/
def withRoom (r : Room D) : RawServer D := { s with server := r.server }

/-- `handleUpdate`. -/
def handleUpdate (cfg : RoomConfig D) (decode : Bytes → Option D) (now : Time)
    (deviceId userId : String) (roomEpoch updateId : ℕ) (update : Bytes) :
    Except UpdateFailure Unit × RawServer D :=
  match requireRole cfg.vaultId deviceId userId true s.server.data with
  | .error e => (.error (.failure e), s)
  | .ok _ =>
    if update.length > maxUpdateBytes then
      ((fail .PAYLOAD_TOO_LARGE "Yjs payload too large").mapError .failure, s)
    else
      match s.materialize with
      | none => (.error .unreadable, s)
      | some r =>
        match r.rejectIfStale roomEpoch deviceId with
        | some _ => (.ok (), s.withRoom r)
        | none =>
          match r.requireParticipant deviceId with
          | .error e => (.error (.failure e), s.withRoom r)
          | .ok participant =>
            if !participant.role.canWrite then
              ((fail .FORBIDDEN "Write permission required").mapError .failure, s.withRoom r)
            else
              let (participant, exceeded) := Room.checkRateLimit cfg now participant
              let r := r.withParticipant participant
              if exceeded then
                ((fail .RATE_LIMITED "Too many Yjs updates").mapError .failure, s.withRoom r)
              else
                match decode update with
                | some update =>
                  let outcome := r.acceptUpdate cfg ready now participant userId updateId update
                  (outcome.result.mapError .failure, s.withRoom outcome.room)
                | none =>
                  -- the row is stored before the update is read
                  (.error .unreadable,
                    { s.withRoom r with
                      malformed := s.malformed ++
                        [{ roomEpoch := r.runtime.persisted.epoch
                           seq := r.runtime.persisted.nextSeq
                           deviceId, update, createdAt := now }] })

end RawServer

/-- The rows that a call deletes: those a compaction has in its snapshot. -/
def RoomEvent.deletes (s : RoomServer D) (event : RoomEvent D) (update : StoredYjsUpdate Bytes) :
    Bool :=
  match event with
  | .compact _ throughSeq =>
    let persisted := s.materialize.runtime.persisted
    update.roomEpoch = persisted.epoch ∧ update.seq ≤ throughSeq.getD (persisted.nextSeq - 1)
  | _ => false

/-- The server after a call; a call that cannot load the room throws. -/
def rawStep (cfg : RoomConfig D) (decode : Bytes → Option D) (s : RawServer D) :
    RawEvent D → RawServer D
  | .handleUpdate now deviceId userId roomEpoch updateId update =>
    (s.handleUpdate cfg decode now deviceId userId roomEpoch updateId update).2
  | .call event =>
    if (event.finds s.server).isSome && s.materialize.isNone then s
    else
      { server := roomStep cfg s.server event
        malformed := s.malformed.filter fun update => !event.deletes s.server update }

/-! ### The claim -/

/-- The sequences stored for the incarnation of the room. -/
def RawServer.storedSeqs (s : RawServer D) : List ℕ :=
  (s.server.roomStore.updates.filter fun update =>
      update.roomEpoch = s.persisted.epoch).map StoredYjsUpdate.seq ++
    (s.malformed.filter fun update => update.roomEpoch = s.persisted.epoch).map
      StoredYjsUpdate.seq

/-- The stored room can be loaded and is the one in memory, and its updates are numbered one
by one. -/
structure Loadable (s : RawServer D) : Prop where
  loads : ∃ runtime, s.load = some runtime ∧
    ∀ room ∈ s.server.runtime, runtime.doc = room.doc
  distinct : s.storedSeqs.Nodup
  below : ∀ seq ∈ s.storedSeqs, seq < s.persisted.nextSeq

/-- The bytes pass the checks of `handleUpdate`. -/
structure BytesTaken (cfg : RoomConfig D) (now : Time) (deviceId userId : String)
    (roomEpoch : ℕ) (update : Bytes) (r : Room D) (participant : Participant) : Prop where
  role : ∃ role, requireRole cfg.vaultId deviceId userId true r.data = .ok role
  size : update.length ≤ maxUpdateBytes
  current : r.rejectIfStale roomEpoch deviceId = none
  present : r.runtime.participants.get? deviceId = some participant
  canWrite : participant.role.canWrite = true
  inTime : (Room.checkRateLimit cfg now participant).2 = false

/-- The bytes of an update that passes the checks are an update. -/
def UpdatesReadable (cfg : RoomConfig D) (decode : Bytes → Option D) (s : RawServer D) :
    RawEvent D → Prop
  | .handleUpdate now deviceId userId roomEpoch _ update =>
    ∀ participant, BytesTaken cfg now deviceId userId roomEpoch update s.server.materialize
      participant → (decode update).isSome
  | .call _ => True

/-- A compaction stays within the updates that were merged. -/
def CompactsRead (s : RawServer D) : RawEvent D → Prop
  | .handleUpdate .. => True
  | .call event => CompactsMerged s.server event

/-! ### Sequences -/

/-- The updates of the incarnation in memory are numbered one by one, below the next one. -/
structure DistinctSeqs (r : Room D) : Prop where
  distinct : ((r.roomStore.updates.filter fun update =>
    update.roomEpoch = r.runtime.persisted.epoch).map StoredYjsUpdate.seq).Nodup
  below : ∀ update ∈ r.roomStore.updates, update.roomEpoch = r.runtime.persisted.epoch →
    update.seq < r.runtime.persisted.nextSeq

namespace DistinctSeqs

variable {r r' : Room D}

omit [SemilatticeSup D] [OrderBot D] in
/-- What leaves the numbering alone; updates may be deleted. -/
theorem of_sublist (h : DistinctSeqs r)
    (hupdates : r'.roomStore.updates.Sublist r.roomStore.updates)
    (hepoch : r'.runtime.persisted.epoch = r.runtime.persisted.epoch)
    (hnext : r'.runtime.persisted.nextSeq = r.runtime.persisted.nextSeq) : DistinctSeqs r' := by
  constructor
  · rw [hepoch]
    exact h.distinct.sublist ((hupdates.filter _).map _)
  · intro update hmem hsame
    rw [hepoch] at hsame
    rw [hnext]
    exact h.below update (hupdates.subset hmem) hsame

omit [SemilatticeSup D] [OrderBot D] in
theorem of_eq (h : DistinctSeqs r) (hupdates : r'.roomStore.updates = r.roomStore.updates)
    (hepoch : r'.runtime.persisted.epoch = r.runtime.persisted.epoch)
    (hnext : r'.runtime.persisted.nextSeq = r.runtime.persisted.nextSeq) : DistinctSeqs r' :=
  h.of_sublist (hupdates ▸ List.Sublist.refl _) hepoch hnext

omit [SemilatticeSup D] [OrderBot D] in
/-- The next update gets the next number. -/
theorem append (h : DistinctSeqs r) {update : StoredYjsUpdate D}
    (hseq : update.seq = r.runtime.persisted.nextSeq)
    (hupdates : r'.roomStore.updates = r.roomStore.updates ++ [update])
    (hepoch : r'.runtime.persisted.epoch = r.runtime.persisted.epoch)
    (hnext : r'.runtime.persisted.nextSeq = r.runtime.persisted.nextSeq + 1) :
    DistinctSeqs r' := by
  constructor
  · rw [hupdates, hepoch, List.filter_append, List.map_append, List.nodup_append]
    refine ⟨h.distinct, ?_, ?_⟩
    · refine List.Nodup.sublist ((List.filter_sublist (l := [update])).map _) ?_
      exact List.nodup_singleton _
    · intro seq hseq₁ seq' hseq₂
      obtain ⟨earlier, hearlier, rfl⟩ := List.mem_map.mp hseq₁
      obtain ⟨hmem, hsame⟩ := List.mem_filter.mp hearlier
      obtain ⟨last, hlast, rfl⟩ := List.mem_map.mp hseq₂
      obtain rfl : last = update := List.mem_singleton.mp (List.mem_filter.mp hlast).1
      rw [hseq]
      exact (h.below earlier hmem (of_decide_eq_true hsame)).ne
  · intro u hmem hsame
    rw [hepoch] at hsame
    rw [hnext]
    rw [hupdates, List.mem_append, List.mem_singleton] at hmem
    rcases hmem with hmem | rfl
    · exact (h.below u hmem hsame).trans (Nat.lt_succ_self _)
    · rw [hseq]
      exact Nat.lt_succ_self _

end DistinctSeqs

variable {cfg : RoomConfig D} {r : Room D} {now : Time} {deviceId userId : String}

/-- A new incarnation has no updates yet. -/
theorem distinctSeqs_activate {clientID : ℕ} {file : StoredFile}
    (hepochs : ∀ update ∈ r.roomStore.updates, update.roomEpoch ≤ r.runtime.persisted.epoch) :
    DistinctSeqs (r.activate cfg now clientID file deviceId) := by
  have hepoch : r.runtime.persisted.epoch
      < (r.activate cfg now clientID file deviceId).runtime.persisted.epoch := by
    simp only [Room.activate, Room.saveRuntime]
    split <;> omega
  have hnone : ∀ update ∈ (r.activate cfg now clientID file deviceId).roomStore.updates,
      update.roomEpoch
        ≠ (r.activate cfg now clientID file deviceId).runtime.persisted.epoch := by
    intro update hmem
    exact ((hepochs update hmem).trans_lt hepoch).ne
  constructor
  · rw [List.filter_eq_nil_iff.mpr fun update hmem => by simpa using hnone update hmem]
    exact List.nodup_nil
  · intro update hmem hsame
    exact absurd hsame (hnone update hmem)

theorem distinctSeqs_join {file : StoredFile} {connection : ℕ} (h : DistinctSeqs r) :
    DistinctSeqs (r.join cfg now file deviceId userId connection).room := by
  rcases r.join_cases with ⟨e, hroom⟩ | ⟨role, joined, rfl, hroom⟩ <;> rw [hroom] <;>
    exact h.of_eq rfl rfl rfl

theorem distinctSeqs_promote {clientID connection : ℕ} (hdurable : Durable r)
    (h : DistinctSeqs r) :
    DistinctSeqs (r.promote cfg now clientID deviceId userId connection).room := by
  rcases r.promote_cases with ⟨hroom, -⟩ | ⟨file, -, -, hpromote⟩
  · rw [hroom]
    exact h
  · rw [hpromote]
    split
    · exact distinctSeqs_join (distinctSeqs_activate hdurable.epochs)
    · exact distinctSeqs_join h

theorem distinctSeqs_acceptUpdate {busy : RoomSink → Bool} {participant : Participant}
    {updateId : ℕ} {update : D} (h : DistinctSeqs r) :
    DistinctSeqs (r.acceptUpdate cfg busy now participant userId updateId update).room := by
  let row : StoredYjsUpdate D :=
    { roomEpoch := r.runtime.persisted.epoch, seq := r.runtime.persisted.nextSeq
      deviceId := participant.deviceId, update, createdAt := now }
  have hseq : row.seq = r.runtime.persisted.nextSeq := rfl
  refine h.append hseq ?_ ?_ ?_ <;> (unfold Room.acceptUpdate; dsimp only; split <;> rfl)

theorem distinctSeqs_handleUpdate {busy : RoomSink → Bool} {roomEpoch updateId : ℕ} {update : D}
    (h : DistinctSeqs r) :
    DistinctSeqs (r.handleUpdate cfg busy now deviceId userId roomEpoch updateId update).room := by
  rcases r.handleUpdate_cases with hroom | ⟨participant, -, -, -, hroom | hallowed⟩
  · rw [hroom]
    exact h
  · rw [hroom]
    exact h.of_eq rfl rfl rfl
  · rw [Room.handleUpdate_of_allowed hallowed]
    exact distinctSeqs_acceptUpdate (h.of_eq rfl rfl rfl)

omit [SemilatticeSup D] [OrderBot D] in
theorem distinctSeqs_removeParticipant {participant : Participant} (h : DistinctSeqs r) :
    DistinctSeqs (r.removeParticipant participant) := by
  unfold Room.removeParticipant Room.scheduleClosingIfEmpty
  split <;> exact h.of_eq rfl rfl rfl

theorem distinctSeqs_heartbeat {roomEpoch : ℕ} (h : DistinctSeqs r) :
    DistinctSeqs (r.heartbeat cfg now deviceId roomEpoch).room := by
  rcases r.heartbeat_cases with hroom | ⟨-, hroom⟩ <;> rw [hroom]
  · exact h
  · exact h.of_eq rfl rfl rfl

omit [SemilatticeSup D] [OrderBot D] in
theorem distinctSeqs_leave {roomEpoch : ℕ} (h : DistinctSeqs r) :
    DistinctSeqs (r.leave deviceId roomEpoch).room := by
  rcases r.leave_cases with hroom | ⟨participant, -, hroom⟩ <;> rw [hroom]
  · exact h
  · exact distinctSeqs_removeParticipant h

omit [SemilatticeSup D] [OrderBot D] in
theorem distinctSeqs_disconnect (h : DistinctSeqs r) : DistinctSeqs (r.disconnect deviceId) := by
  rcases r.disconnect_cases with ⟨-, hroom⟩ | ⟨participant, -, hroom⟩ <;> rw [hroom]
  · exact h
  · exact distinctSeqs_removeParticipant h

theorem distinctSeqs_flush {busy : RoomSink → Bool} {uuid : Uuid} {t : Room D}
    (h : DistinctSeqs r) (hflush : Room.FlushOf cfg busy now uuid r t) : DistinctSeqs t := by
  have hdemoted : ∀ reason, DistinctSeqs (r.demoteLocked cfg busy now uuid reason).room := by
    intro reason
    rcases r.demoteLocked_cases with
      ⟨-, hroom⟩ | ⟨-, ⟨data, -, -, hroom⟩ | ⟨answer, data, -, hroom⟩⟩ <;> rw [hroom]
    · exact h
    · exact h.of_eq rfl rfl rfl
    · exact h.of_eq rfl rfl rfl
  rcases hflush with rfl | ⟨reason, rfl | ⟨-, -, rfl⟩⟩
  · exact h
  · exact hdemoted reason
  · exact (hdemoted reason).of_eq rfl rfl rfl

theorem distinctSeqs_compact {throughSeq : Option ℕ} (h : DistinctSeqs r) :
    DistinctSeqs (r.compact cfg now throughSeq).room :=
  h.of_sublist List.filter_sublist rfl rfl

theorem distinctSeqs_restoreHistoryVersion {busy : RoomSink → Bool} {uuid : Uuid}
    {clientID versionId : ℕ} {requestId : String} (h : DistinctSeqs r) :
    DistinctSeqs (r.restoreHistoryVersion cfg busy now uuid clientID deviceId userId versionId
      requestId).room := by
  rcases r.restoreHistoryVersion_cases with
    hroom | ⟨file, version, -, -, ⟨data, -, -, hroom⟩ | ⟨answer, data, -, hroom⟩⟩ <;> rw [hroom]
  · exact h
  · exact h.of_eq rfl rfl rfl
  · exact h.append rfl rfl rfl rfl

/-- A restart gives back the numbering. -/
theorem distinctSeqs_restart (hdurable : Durable r) (h : DistinctSeqs r) :
    DistinctSeqs { r with runtime := loadRuntime r.roomStore } := by
  obtain ⟨hpersisted, -⟩ := loadRuntime_of_durable hdurable
  exact h.of_eq rfl (congrArg PersistedYjsRoom.epoch hpersisted)
    (congrArg PersistedYjsRoom.nextSeq hpersisted)

/-- **The calls number the updates of an incarnation one by one.** -/
theorem distinctSeqs_roomStep {t : RoomServer D} (e : RoomEvent D)
    (hdurable : Durable t.materialize) (h : DistinctSeqs t.materialize) :
    DistinctSeqs (roomStep cfg t e).materialize := by
  cases e with
  | layer1 event => exact h.of_eq rfl rfl rfl
  | promote => exact distinctSeqs_promote hdurable h
  | handleUpdate => exact distinctSeqs_handleUpdate h
  | handleSync deviceId roomEpoch stateVector =>
    have hroom := t.materialize.handleSync_room cfg deviceId roomEpoch stateVector
    simpa only [roomStep, materialize_server, hroom] using h
  | heartbeat => exact distinctSeqs_heartbeat h
  | leave => exact distinctSeqs_leave h
  | disconnect => exact materialize_inMemory h (distinctSeqs_disconnect h)
  | demote => exact distinctSeqs_flush h (Room.flushOf_demote _)
  | closeDeleted =>
    simp only [roomStep, materialize_server, Room.closeDeleted, Room.closeWithoutFlush]
    split
    · exact h.of_eq rfl rfl rfl
    · exact h
  | closingTimer => exact materialize_inMemory h (distinctSeqs_flush h Room.flushOf_closingTimer)
  | sweepExpired => exact materialize_inMemory h (distinctSeqs_flush h Room.flushOf_sweepExpired)
  | closeAll => exact materialize_inMemory h (distinctSeqs_flush h Room.flushOf_closeAll)
  | compact => exact distinctSeqs_compact h
  | restoreHistoryVersion => exact distinctSeqs_restoreHistoryVersion h
  | restart => exact distinctSeqs_restart hdurable h

/-! ### Updates as they come -/

section Updates

variable {decode : Bytes → Option D} {s : RawServer D} {roomEpoch updateId : ℕ} {update : Bytes}

/-- Bytes that pass the checks are merged if they are an update, and stored in any case. -/
theorem handleUpdate_of_taken {participant : Participant} (hroom : s.materialize = some r)
    (hdata : r.data = s.server.data)
    (h : BytesTaken cfg now deviceId userId roomEpoch update r participant) :
    (s.handleUpdate cfg decode now deviceId userId roomEpoch updateId update).2
      = match decode update with
        | some update => s.withRoom ((r.withParticipant
            (Room.checkRateLimit cfg now participant).1).acceptUpdate cfg ready now
              (Room.checkRateLimit cfg now participant).1 userId updateId update).room
        | none =>
          { s.withRoom (r.withParticipant (Room.checkRateLimit cfg now participant).1) with
            malformed := s.malformed ++
              [{ roomEpoch := r.runtime.persisted.epoch, seq := r.runtime.persisted.nextSeq
                 deviceId, update, createdAt := now }] } := by
  obtain ⟨role, hrole⟩ := h.role
  rw [hdata] at hrole
  have hparticipant := Room.requireParticipant_eq_ok_iff.mpr h.present
  unfold RawServer.handleUpdate
  simp only [hrole, Nat.not_lt.mpr h.size, hroom, h.current, hparticipant, h.canWrite, h.inTime,
    if_false, Bool.not_true, Bool.false_eq_true]
  cases decode update <;> rfl

/-- An update call leaves the room as it is, or counts the update of a participant, or its
bytes pass the checks. -/
theorem handleUpdate_cases (hroom : s.materialize = some r) (hdata : r.data = s.server.data) :
    (s.handleUpdate cfg decode now deviceId userId roomEpoch updateId update).2 = s ∨
    (∃ t, (t = r ∨ ∃ participant, t = r.withParticipant participant) ∧
      (s.handleUpdate cfg decode now deviceId userId roomEpoch updateId update).2
        = s.withRoom t) ∨
    ∃ participant, BytesTaken cfg now deviceId userId roomEpoch update r participant := by
  unfold RawServer.handleUpdate
  split
  · exact Or.inl rfl
  next role hrole =>
  split
  · exact Or.inl rfl
  next hsize =>
  rw [hroom]
  dsimp only
  split
  · exact Or.inr (Or.inl ⟨r, Or.inl rfl, rfl⟩)
  next hcurrent =>
  split
  · exact Or.inr (Or.inl ⟨r, Or.inl rfl, rfl⟩)
  next participant hparticipant =>
  split
  · exact Or.inr (Or.inl ⟨r, Or.inl rfl, rfl⟩)
  next hwrite =>
  split
  · exact Or.inr (Or.inl ⟨_, Or.inr ⟨_, rfl⟩, rfl⟩)
  · next hlimit =>
    rw [← hdata] at hrole
    exact Or.inr (Or.inr ⟨participant, ⟨role, hrole⟩, Nat.not_lt.mp hsize, hcurrent,
      Room.requireParticipant_eq_ok_iff.mp hparticipant, by simpa using hwrite,
      by simpa using hlimit⟩)

end Updates

/-! ### Runs -/

/-- The stored room is the one in memory, numbered one by one, and without malformed rows. -/
structure RawDurable (s : RawServer D) : Prop where
  durable : Durable s.server.materialize
  distinctSeqs : DistinctSeqs s.server.materialize
  malformed : s.malformed = []

section Runs

variable {decode : Bytes → Option D} {s : RawServer D}

theorem RawDurable.load (h : RawDurable s) : s.load = some (loadRuntime s.server.roomStore) := by
  have hnone : s.unreadable = [] := by
    rw [RawServer.unreadable, h.malformed]
    split <;> rfl
  rw [RawServer.load, hnone]
  rfl

theorem RawDurable.materialize (h : RawDurable s) : s.materialize = some s.server.materialize := by
  rw [RawServer.materialize, h.load]
  simp

theorem RawDurable.loadable (h : RawDurable s) : Loadable s := by
  have hpersisted : s.persisted = s.server.materialize.runtime.persisted := h.durable.stored
  have hseqs : s.storedSeqs = (s.server.roomStore.updates.filter fun update =>
      update.roomEpoch = s.server.materialize.runtime.persisted.epoch).map
        StoredYjsUpdate.seq := by
    rw [RawServer.storedSeqs, h.malformed, hpersisted]
    simp
  refine ⟨⟨_, h.load, ?_⟩, ?_, ?_⟩
  · intro room hroom
    have hdoc : (loadRuntime s.server.roomStore).doc = s.server.materialize.runtime.doc :=
      (loadRuntime_of_durable h.durable).2
    rw [hdoc, RawServer.server, RoomServer.materialize, Option.mem_def.mp hroom]
    rfl
  · rw [hseqs]
    exact h.distinctSeqs.distinct
  · intro seq hseq
    rw [hseqs] at hseq
    obtain ⟨update, hupdate, rfl⟩ := List.mem_map.mp hseq
    obtain ⟨hmem, hsame⟩ := List.mem_filter.mp hupdate
    rw [hpersisted]
    exact h.distinctSeqs.below update hmem (of_decide_eq_true hsame)

theorem RawDurable.withRoom {t : Room D} (h : RawDurable s) (hdurable : Durable t)
    (hdistinct : DistinctSeqs t) : RawDurable (s.withRoom t) :=
  ⟨hdurable, hdistinct, h.malformed⟩

/-- **The calls keep the stored room up to date**, if the bytes they store are updates. -/
theorem rawDurable_rawStep {e : RawEvent D} (h : RawDurable s) (hcompact : CompactsRead s e)
    (hreadable : UpdatesReadable cfg decode s e) : RawDurable (rawStep cfg decode s e) := by
  cases e with
  | call event =>
    have hloads : ((event.finds s.server).isSome && s.materialize.isNone) = false := by
      rw [h.materialize]
      simp
    rw [rawStep, hloads]
    exact ⟨durable_roomStep h.durable hcompact, distinctSeqs_roomStep event h.durable
      h.distinctSeqs, by simp [h.malformed]⟩
  | handleUpdate now deviceId userId roomEpoch updateId update =>
    simp only [rawStep]
    rcases handleUpdate_cases h.materialize rfl with
      hsame | ⟨t, ht, hroom⟩ | ⟨participant, htaken⟩
    · rw [hsame]
      exact h
    · rw [hroom]
      rcases ht with rfl | ⟨participant, rfl⟩
      · exact h.withRoom h.durable h.distinctSeqs
      · exact h.withRoom (durable_withParticipant h.durable) (h.distinctSeqs.of_eq rfl rfl rfl)
    · rw [handleUpdate_of_taken h.materialize rfl htaken]
      obtain ⟨u, hu⟩ := Option.isSome_iff_exists.mp (hreadable participant htaken)
      simp only [hu]
      have hactive := (Room.rejectIfStale_eq_none_iff.mp htaken.current).1
      exact h.withRoom (durable_acceptUpdate (durable_withParticipant h.durable) hactive)
        (distinctSeqs_acceptUpdate (h.distinctSeqs.of_eq rfl rfl rfl))

/-- A row that is not an update keeps the room from loading. -/
theorem updatesReadable_of_loadable {e : RawEvent D} (h : RawDurable s)
    (hloadable : Loadable (rawStep cfg decode s e)) : UpdatesReadable cfg decode s e := by
  cases e with
  | call event => trivial
  | handleUpdate now deviceId userId roomEpoch updateId update =>
    intro participant htaken
    by_contra hmalformed
    have hnone : decode update = none := by simpa using hmalformed
    obtain ⟨⟨runtime, hload, -⟩, -, -⟩ := hloadable
    rw [rawStep, handleUpdate_of_taken h.materialize rfl htaken] at hload
    simp only [hnone, h.malformed] at hload
    obtain ⟨hactive, -, -⟩ := Room.rejectIfStale_eq_none_iff.mp htaken.current
    have hseeded := h.durable.seeded hactive
    have hstored := h.durable.stored
    have hcompacted := h.durable.compacted
    simp [RawServer.load, RawServer.unreadable, RawServer.persisted, RawServer.withRoom,
      Room.server, Room.withParticipant, hstored, hseeded, hcompacted] at hload

theorem rawDurable_initial (data : Store) : RawDurable ({ server := { data } } : RawServer D) :=
  ⟨durable_initial data, ⟨List.nodup_nil, by simp [RoomServer.materialize]⟩, rfl⟩

/-- **A room stays loadable as long as all bytes that are stored are updates.** -/
theorem loadable_iff_updatesReadable (cfg : RoomConfig D) (decode : Bytes → Option D)
    (data : Store) {es : List (RawEvent D)}
    (hes : Run.EachStep (rawStep cfg decode) CompactsRead { server := { data } } es) :
    Run.Throughout (rawStep cfg decode) Loadable { server := { data } } es ↔
      Run.EachStep (rawStep cfg decode) (UpdatesReadable cfg decode) { server := { data } } es :=
  Run.throughout_iff_of_breaks (G := RawDurable) (fun _ h => h.loadable)
    (fun _ _ h hcompact hreadable => rawDurable_rawStep h hcompact hreadable)
    (fun _ _ h _ hloadable => updatesReadable_of_loadable h hloadable) (rawDurable_initial data)
    hes

end Runs

end

/-! ### A room with an update that is none -/

/-- Of the encodings, the one of the update that holds nothing. -/
def sampleDecode (update : Bytes) : Option (Finset Write) :=
  if update = [0, 0] then some ⊥ else none

/-- The note is opened, and the participant sends the bytes. -/
def sampleSent (update : Bytes) : List (RawEvent (Finset Write)) :=
  [.call sampleCreate, .call (.promote 2 7 "d2" "u" 0), .handleUpdate 3 "d2" "u" 1 1 update,
    .call (.compact 4 none), .call .restart]

/-- An update is stored and read again. -/
theorem loadable_readableUpdate :
    Run.Throughout (rawStep sampleRoom sampleDecode) Loadable { server := { data := sampleStore } }
      (sampleSent [0, 0]) := by
  have hcompacts : Run.EachStep (rawStep sampleRoom sampleDecode) CompactsRead
      { server := { data := sampleStore } } (sampleSent [0, 0]) :=
    ⟨trivial, trivial, trivial, fun _ h => by simp at h, trivial, trivial⟩
  exact (loadable_iff_updatesReadable sampleRoom sampleDecode sampleStore hcompacts).mpr
    ⟨trivial, trivial, fun _ _ => rfl, trivial, trivial, trivial⟩

/-- A single byte is stored although nothing was merged, and the room cannot be loaded. -/
theorem not_loadable_malformedUpdate :
    Run.EachStep (rawStep sampleRoom sampleDecode) CompactsRead
        { server := { data := sampleStore } } ((sampleSent [1]).take 3) ∧
      ¬ Run.Throughout (rawStep sampleRoom sampleDecode) Loadable
        { server := { data := sampleStore } } ((sampleSent [1]).take 3) := by
  refine ⟨⟨trivial, trivial, trivial, trivial⟩, fun h => ?_⟩
  obtain ⟨⟨runtime, hload, -⟩, -, -⟩ := h.final
  have hnone : (Run.final (rawStep sampleRoom sampleDecode) { server := { data := sampleStore } }
      ((sampleSent [1]).take 3)).load.isSome = false := by decide +kernel
  rw [hload] at hnone
  simp at hnone

end ObsidianSync
