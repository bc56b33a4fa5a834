import ObsidianSync.Room.Manager

/-!
# What the calls on a room can do

Each call of the room manager either leaves the room as it is or makes one of a few
changes; the lemmas here say which, with everything that was checked before.

## Main definitions

* `UpdateAllowed` — the checks an update passes.
* `FlushOf` — what a call that closes the room may leave behind.

## Main results

* `promote_cases`, `join_cases` — a promotion activates the room if it is dormant,
  extends the lease and adds a participant.
* `handleUpdate_cases`, `handleUpdate_of_allowed` — an update is merged exactly if it
  is allowed.
* `demoteLocked_cases` — a flush is acknowledged or leaves the room open.
* `restoreHistoryVersion_cases` — a restore replaces the text after its op.
* `accepted_of_ack` — a new op of a room that is acknowledged was applied.
-/

namespace ObsidianSync

/-! ### Rows and leases -/

section

variable {vaultId fileId : String} {activeUntil : Option Time} {data : Store}

/-- The row of the room with another lease. -/
theorem getFile_setActiveUntil :
    (setActiveUntil vaultId fileId activeUntil data).getFile vaultId fileId
      = (data.getFile vaultId fileId).map fun file => { file with activeUntil } := by
  unfold setActiveUntil
  cases h : data.getFile vaultId fileId with
  | none => simp [h]
  | some file =>
    have hkey := Store.key_of_getFile h
    simp [Store.getFile_saveFile, StoredFile.key, hkey]

/-- The row of the room after the end of a close. -/
theorem getFile_clearActiveUntil :
    (clearActiveUntil vaultId fileId data).getFile vaultId fileId
      = (data.getFile vaultId fileId).map fun file => { file with activeUntil := none } := by
  unfold clearActiveUntil
  cases h : data.getFile vaultId fileId with
  | none => simp [h]
  | some file =>
    have hkey := Store.key_of_getFile h
    by_cases hlease : file.activeUntil.isSome = true
    · simp [hlease, Store.getFile_saveFile, StoredFile.key, hkey]
    · have hsame : { file with activeUntil := none } = file := by
        rw [← Option.not_isSome_iff_eq_none.mp hlease]
      simp only [hlease, Bool.false_eq_true, if_false, h, Option.map_some, hsame]

@[simp] theorem getContent_setActiveUntil (hash : String) :
    (setActiveUntil vaultId fileId activeUntil data).getContent hash = data.getContent hash := by
  unfold setActiveUntil
  split <;> rfl

@[simp] theorem getContent_clearActiveUntil (hash : String) :
    (clearActiveUntil vaultId fileId data).getContent hash = data.getContent hash := by
  unfold clearActiveUntil
  split
  · rfl
  · split <;> rfl

theorem of_requiredLiveFile {file : StoredFile}
    (h : requiredLiveFile vaultId fileId data = .ok file) :
    data.getFile vaultId fileId = some file ∧ file.deleted = false := by
  unfold requiredLiveFile at h
  split at h
  · simp [fail] at h
  · next row hrow =>
    split at h
    · simp [fail] at h
    · next hlive =>
      obtain rfl : row = file := by simpa using h
      exact ⟨hrow, by simpa using hlive⟩

end

/-! ### Ops of a room -/

/-- A new op of a room that is acknowledged was applied. -/
theorem accepted_of_ack {P : Platform} {now : Time} {uuid : Uuid} {op : FileOp} {s data : Store}
    {answer : OpAckResult} (hcollab : syntheticCollab op = true)
    (hfresh : s.getOpById op.opId = none)
    (h : process P now uuid op none s = (.ok (.ack answer), data)) :
    ∃ applied, accepted P now uuid op none s = some applied ∧
      data = (commit now op none applied).2 := by
  have hdevice : opDevice op s = none := by simp [opDevice, hcollab]
  cases ha : accepted P now uuid op none s with
  | some applied =>
    rw [process_of_accepted ha, hdevice] at h
    exact ⟨applied, rfl, (Prod.mk.inj h).2.symm⟩
  | none =>
    -- without a commit the op is refused, since nothing in the log answers it
    have hcheck : checkDevice op none s = none := by simp [checkDevice, hcollab]
    have hnot : ∀ e, answerFailure op e ≠ .ok (.ack answer) := by
      intro e
      cases e <;> simp [answerFailure, reject]
    unfold accepted at ha
    unfold process at h
    simp only [hfresh, hcheck, Option.isSome_none, Bool.or_self, Bool.false_eq_true,
      if_false] at ha h
    rcases hvalid : validatePayload P op s with ⟨e | u, tx⟩
    · simp only [hvalid] at h
      exact absurd (Prod.mk.inj h).1 (hnot e)
    · simp only [hvalid] at ha h
      cases happly : applyOp P now uuid op (tx.getFile op.vaultId op.fileId) tx with
      | ok a => simp [happly, Except.toOption] at ha
      | error e =>
        simp only [happly] at h
        exact absurd (Prod.mk.inj h).1 (hnot e)

section

variable {D : Type} [SemilatticeSup D] [OrderBot D] {cfg : RoomConfig D}

namespace Room

variable {busy : RoomSink → Bool} {r : Room D} {now : Time} {deviceId userId : String}

/-! ### Being up to date -/

omit [SemilatticeSup D] [OrderBot D] in
/-- A message is taken up if the room is active in the incarnation it names. -/
theorem rejectIfStale_eq_none_iff {epoch : ℕ} :
    r.rejectIfStale epoch deviceId = none ↔
      r.runtime.persisted.active = true ∧ r.runtime.persisted.epoch = epoch ∧
        r.runtime.state ≠ .closed := by
  unfold rejectIfStale
  cases r.runtime.persisted.active <;> by_cases h : r.runtime.persisted.epoch = epoch <;> simp [h]

omit [SemilatticeSup D] [OrderBot D] in
theorem requireParticipant_eq_ok_iff {participant : Participant} :
    r.requireParticipant deviceId = .ok participant ↔
      r.runtime.participants.get? deviceId = some participant := by
  unfold requireParticipant
  cases r.runtime.participants.get? deviceId <;> simp [fail]

/-- Counting an update changes the window of the participant only. -/
theorem checkRateLimit_fst (participant : Participant) :
    (checkRateLimit cfg now participant).1
      = { participant with
          rateWindowStarted := (checkRateLimit cfg now participant).1.rateWindowStarted
          updatesInWindow := (checkRateLimit cfg now participant).1.updatesInWindow } := by
  unfold checkRateLimit
  split <;> rfl

/-! ### Promotion -/

variable {clientID connection : ℕ}

/-- A promotion does nothing, or it activates the room if that is dormant and joins it. -/
theorem promote_cases :
    ((r.promote cfg now clientID deviceId userId connection).room = r ∧
      (r.promote cfg now clientID deviceId userId connection).sent = [] ∧
      ∃ e, (r.promote cfg now clientID deviceId userId connection).result = .error e) ∨
    ∃ file, r.data.getFile cfg.vaultId cfg.fileId = some file ∧ file.deleted = false ∧
      r.promote cfg now clientID deviceId userId connection
        = (if r.activates then r.activate cfg now clientID file deviceId else r).join cfg now file
            deviceId userId connection := by
  unfold promote
  split
  · next e _ => exact Or.inl ⟨rfl, rfl, e, rfl⟩
  split
  · next e _ => exact Or.inl ⟨rfl, rfl, e, rfl⟩
  next file hfile =>
  split
  · exact Or.inl ⟨rfl, rfl, _, rfl⟩
  · obtain ⟨hrow, hlive⟩ := of_requiredLiveFile hfile
    exact Or.inr ⟨file, hrow, hlive, rfl⟩

/-- Joining extends the lease and adds a participant, unless the device lost its role. -/
theorem join_cases {file : StoredFile} :
    (∃ e : Failure, r.join cfg now file deviceId userId connection
      = ⟨.error e, (r.extendLease cfg now deviceId).welcomeBack deviceId, [], []⟩) ∨
    ∃ role joined, joined = ((r.extendLease cfg now deviceId).welcomeBack deviceId).withParticipant
        (newParticipant now file deviceId userId connection role) ∧
      r.join cfg now file deviceId userId connection
        = ⟨.ok joined.roomState, joined, [], []⟩ := by
  unfold join
  dsimp only
  split
  · next e _ => exact Or.inl ⟨e, rfl⟩
  · next role _ => exact Or.inr ⟨role, _, rfl, rfl⟩

/-! ### Updates -/

variable {roomEpoch updateId : ℕ} {update : D}

/-- What `handleUpdate` checks before it merges an update. -/
structure UpdateAllowed (cfg : RoomConfig D) (now : Time) (deviceId userId : String)
    (roomEpoch : ℕ) (update : D) (r : Room D) (participant : Participant) : Prop where
  role : ∃ role, requireRole cfg.vaultId deviceId userId true r.data = .ok role
  size : cfg.updateBytes update ≤ maxUpdateBytes
  current : r.rejectIfStale roomEpoch deviceId = none
  present : r.runtime.participants.get? deviceId = some participant
  canWrite : participant.role.canWrite = true
  inTime : (checkRateLimit cfg now participant).2 = false

/-- An update that passes the checks is merged. -/
theorem handleUpdate_of_allowed {participant : Participant}
    (h : UpdateAllowed cfg now deviceId userId roomEpoch update r participant) :
    r.handleUpdate cfg busy now deviceId userId roomEpoch updateId update
      = (r.withParticipant (checkRateLimit cfg now participant).1).acceptUpdate cfg busy now
          (checkRateLimit cfg now participant).1 userId updateId update := by
  obtain ⟨role, hrole⟩ := h.role
  have hparticipant := requireParticipant_eq_ok_iff.mpr h.present
  unfold handleUpdate
  simp [hrole, Nat.not_lt.mpr h.size, h.current, hparticipant, h.canWrite, h.inTime]

/-- An update leaves the room as it is, or is counted, and then merged if it is
allowed. -/
theorem handleUpdate_cases :
    (r.handleUpdate cfg busy now deviceId userId roomEpoch updateId update).room = r ∨
    ∃ participant, r.runtime.participants.get? deviceId = some participant ∧
      r.runtime.persisted.active = true ∧ r.runtime.state ≠ .closed ∧
      ((r.handleUpdate cfg busy now deviceId userId roomEpoch updateId update).room
          = r.withParticipant (checkRateLimit cfg now participant).1 ∨
        UpdateAllowed cfg now deviceId userId roomEpoch update r participant) := by
  cases hrole : requireRole cfg.vaultId deviceId userId true r.data with
  | error e => simp [handleUpdate, hrole]
  | ok role =>
    by_cases hsize : cfg.updateBytes update > maxUpdateBytes
    · simp [handleUpdate, hrole, hsize]
    cases hstale : r.rejectIfStale roomEpoch deviceId with
    | some sent => simp [handleUpdate, hrole, hsize, hstale]
    | none =>
      obtain ⟨hactive, -, hopen⟩ := rejectIfStale_eq_none_iff.mp hstale
      cases hparticipant : r.runtime.participants.get? deviceId with
      | none => simp [handleUpdate, hrole, hsize, hstale, requireParticipant, hparticipant, fail]
      | some participant =>
        have hok := requireParticipant_eq_ok_iff.mpr hparticipant
        by_cases hwrite : participant.role.canWrite = true
        · refine Or.inr ⟨participant, rfl, hactive, hopen, ?_⟩
          cases hlimit : (checkRateLimit cfg now participant).2 with
          | true => exact Or.inl (by simp [handleUpdate, hrole, hsize, hstale, hok, hwrite, hlimit])
          | false => exact Or.inr ⟨⟨role, hrole⟩, Nat.not_lt.mp hsize, hstale, hparticipant, hwrite,
              hlimit⟩
        · exact Or.inl (by simp [handleUpdate, hrole, hsize, hstale, hok, hwrite])

/-- An answer to a sync request changes nothing. -/
theorem handleSync_room (cfg : RoomConfig D) (r : Room D) (deviceId : String) (roomEpoch : ℕ)
    (stateVector : D) : (r.handleSync cfg deviceId roomEpoch stateVector).room = r := by
  unfold handleSync
  repeat' split
  all_goals rfl

/-- A heartbeat changes nothing or the end of the lease. -/
theorem heartbeat_cases :
    (r.heartbeat cfg now deviceId roomEpoch).room = r ∨
      r.runtime.persisted.active = true ∧
      (r.heartbeat cfg now deviceId roomEpoch).room
        = (r.withPersisted { r.runtime.persisted with
            leaseUntil := some (now + cfg.options.leaseMs) }).saveRuntime cfg := by
  unfold heartbeat
  split
  · exact Or.inl rfl
  next hstale =>
  split
  · exact Or.inl rfl
  · exact Or.inr ⟨(rejectIfStale_eq_none_iff.mp hstale).1, rfl⟩

/-! ### Leaving -/

omit [SemilatticeSup D] [OrderBot D] in
theorem leave_cases :
    (r.leave deviceId roomEpoch).room = r ∨
      ∃ participant, r.runtime.participants.get? deviceId = some participant ∧
        (r.leave deviceId roomEpoch).room = r.removeParticipant participant := by
  unfold leave
  split
  · exact Or.inl rfl
  split
  · exact Or.inl rfl
  · next participant h =>
    exact Or.inr ⟨participant, requireParticipant_eq_ok_iff.mp h, rfl⟩

omit [SemilatticeSup D] [OrderBot D] in
theorem disconnect_cases :
    (r.runtime.participants.get? deviceId = none ∧ r.disconnect deviceId = r) ∨
      ∃ participant, r.runtime.participants.get? deviceId = some participant ∧
        r.disconnect deviceId = r.removeParticipant participant := by
  unfold disconnect
  cases r.runtime.participants.get? deviceId with
  | none => exact Or.inl ⟨rfl, rfl⟩
  | some participant => exact Or.inr ⟨participant, rfl, rfl⟩

/-! ### Closing -/

variable {uuid : Uuid} {reason : RoomClosedReason}

/-- A flush does nothing to a dormant room; on an active one its op is refused, and
the room stays open, or acknowledged, and the room is closed. -/
theorem demoteLocked_cases :
    (r.runtime.persisted.active = false ∧
      (r.demoteLocked cfg busy now uuid reason).room = r) ∨
    r.runtime.persisted.active = true ∧
      ((∃ data, (∀ answer, (process cfg.platform now uuid (r.flushOp cfg) none r.data).1
            ≠ .ok (.ack answer)) ∧
          data = (process cfg.platform now uuid (r.flushOp cfg) none r.data).2 ∧
          (r.demoteLocked cfg busy now uuid reason).room = { r with data }) ∨
        ∃ answer data, process cfg.platform now uuid (r.flushOp cfg) none r.data
            = (.ok (.ack answer), data) ∧
          (r.demoteLocked cfg busy now uuid reason).room
            = (finishDemote cfg busy { r with data } now reason
                (contentHashText cfg.platform (cfg.crdt.content textName r.runtime.doc))).1) := by
  unfold demoteLocked
  cases hactive : r.runtime.persisted.active with
  | false => exact Or.inl ⟨rfl, rfl⟩
  | true =>
    refine Or.inr ⟨rfl, ?_⟩
    simp only [Bool.not_true, Bool.false_eq_true, if_false]
    rcases hprocess : process cfg.platform now uuid (r.flushOp cfg) none r.data with
      ⟨e | result, data⟩
    · exact Or.inl ⟨data, by simp, rfl, rfl⟩
    · cases result with
      | reject answer => exact Or.inl ⟨data, by simp, rfl, rfl⟩
      | ack answer => exact Or.inr ⟨answer, data, rfl, rfl⟩

/-- What a call that closes the room may leave behind: the room as it was, a flush, or
a flush that failed with the room open again. -/
def FlushOf (cfg : RoomConfig D) (busy : RoomSink → Bool) (now : Time) (uuid : Uuid)
    (r s : Room D) : Prop :=
  s = r ∨ ∃ reason, s = (r.demoteLocked cfg busy now uuid reason).room ∨
    r.runtime.persisted.active = true ∧
      (∃ e, (r.demoteLocked cfg busy now uuid reason).result = .error e) ∧
      s = { (r.demoteLocked cfg busy now uuid reason).room with
        runtime := { (r.demoteLocked cfg busy now uuid reason).room.runtime with
          state := .active } }

theorem flushOf_demote (epoch : Option ℕ) :
    FlushOf cfg busy now uuid r (r.demote cfg busy now uuid deviceId epoch reason).room := by
  unfold demote
  cases epoch with
  | none => exact Or.inr ⟨reason, Or.inl rfl⟩
  | some epoch =>
    dsimp only
    split
    · exact Or.inl rfl
    · exact Or.inr ⟨reason, Or.inl rfl⟩

theorem flushOf_closingTimer :
    FlushOf cfg busy now uuid r (r.closingTimer cfg busy now uuid).room := by
  unfold closingTimer demoteCaught
  split
  · next hopen =>
    rw [Bool.and_eq_true] at hopen
    dsimp only
    split
    · exact Or.inr ⟨.demoted, Or.inl rfl⟩
    · next e he => exact Or.inr ⟨.demoted, Or.inr ⟨hopen.2, ⟨e, he⟩, rfl⟩⟩
  · exact Or.inl rfl

theorem flushOf_closeAll :
    FlushOf cfg busy now uuid r (r.closeAll cfg busy now uuid reason).room := by
  unfold closeAll demoteCaught
  split
  · exact Or.inl rfl
  · dsimp only
    split <;> exact Or.inr ⟨reason, Or.inl rfl⟩

theorem flushOf_sweepExpired :
    FlushOf cfg busy now uuid r (r.sweepExpired cfg busy now uuid).room := by
  unfold sweepExpired
  split
  · exact Or.inr ⟨.leaseExpired, Or.inl rfl⟩
  · exact Or.inl rfl

/-! ### History -/

variable {versionId : ℕ} {requestId : String}

/-- A restore does nothing, has its op refused, or replaces the text of the room after
its op was acknowledged. -/
theorem restoreHistoryVersion_cases :
    (r.restoreHistoryVersion cfg busy now uuid clientID deviceId userId versionId
      requestId).room = r ∨
    ∃ file version, r.data.getFile cfg.vaultId cfg.fileId = some file ∧
      r.roomStore.getSnapshotVersion versionId = some version ∧
      let text := textFromSnapshot cfg version.snapshot
      let op := restoreOp cfg file text requestId
      ((∃ data, (∀ answer, (process cfg.platform now uuid op none r.data).1 ≠ .ok (.ack answer)) ∧
          data = (process cfg.platform now uuid op none r.data).2 ∧
          (r.restoreHistoryVersion cfg busy now uuid clientID deviceId userId versionId
            requestId).room = { r with data }) ∨
        ∃ answer data, process cfg.platform now uuid op none r.data
            = (.ok (.ack answer), data) ∧
          (r.restoreHistoryVersion cfg busy now uuid clientID deviceId userId versionId
            requestId).room
            = (replaceText cfg busy { r with data } now clientID deviceId userId text).1) := by
  unfold restoreHistoryVersion
  split
  · exact Or.inl rfl
  split
  · exact Or.inl rfl
  next file hfile =>
  split
  · exact Or.inl rfl
  next version hversion =>
  refine Or.inr ⟨file, version, (of_requiredLiveFile hfile).1, hversion, ?_⟩
  dsimp only
  rcases hprocess : process cfg.platform now uuid
      (restoreOp cfg file (textFromSnapshot cfg version.snapshot) requestId) none r.data with
    ⟨e | result, data⟩
  · exact Or.inl ⟨data, by simp, rfl, rfl⟩
  · cases result with
    | reject answer => exact Or.inl ⟨data, by simp, rfl, rfl⟩
    | ack answer => exact Or.inr ⟨answer, data, rfl, rfl⟩

end Room

end

end ObsidianSync
