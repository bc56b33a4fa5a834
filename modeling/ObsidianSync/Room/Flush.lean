import ObsidianSync.Room.HandOff

/-!
# The vector of a flush

The op that flushes a room carries a vector that is made from what the room
remembers: the vector of the note when the room was activated, and when each of its
participants joined.  A restore from the history writes the note, and its vector,
without the room taking notice; so the flush is above the note exactly as long as
somebody who joined after the last restore is still there.

## Main definitions

* `FlushApplied` — the flush would be applied as a plain update.
* `DuringActivation` — what happens while a room is active and the content of its
  note is left to it.
* `Remembered`, `trackStep` — who joined after the last restore, along a run.
* `FlushReady` — the room remembers the vector of the note, which has no conflict,
  and the flush is a new op.

## Main results

* `accepted_of_writesText` — an op of the room that dominates is applied.
* `vectorsKnown_trackStep` — what the room knows of the vectors of the note.
* `flushApplied_iff_ready` — in every state of an activation the flush is applied
  exactly if it is ready.
* `not_flushApplied_restored` — after a restore it is not.
-/

namespace ObsidianSync

section

variable {D : Type} [SemilatticeSup D] [OrderBot D]

/-! ### The claim -/

/-- The op that would flush the room: its vector is strictly above the one of the note,
and it is applied as a plain update. -/
def FlushApplied (cfg : RoomConfig D) (r : Room D) : Prop :=
  ∃ row ∈ r.data.getFile cfg.vaultId cfg.fileId,
    VersionVector.strictlyDominates (declaredVV (r.flushOp cfg)) row.contentVV = true ∧
    ∀ now uuid, ∃ applied,
      accepted cfg.platform now uuid (r.flushOp cfg) none r.data = some applied ∧
        applied.file = updatedFile now (r.flushOp cfg) row ∧ applied.conflictId = none

/-- What may happen during an activation: the devices come, write and go, versions are
restored, and content ops of ordinary devices on the note are not accepted. -/
def DuringActivation (cfg : RoomConfig D) (s : RoomServer D) : RoomEvent D → Prop
  | .layer1 (.process now uuid op userId) =>
    op.vaultId = cfg.vaultId → op.fileId = cfg.fileId → op.kind.isContent = true →
      accepted cfg.platform now uuid op userId s.data = none
  | .layer1 (.resolve _ input) =>
    ∀ r, resolution cfg.platform input s.data = some r → r.file.key ≠ (cfg.vaultId, cfg.fileId)
  | .layer1 _ => True
  | .promote .. | .handleUpdate .. | .handleSync .. | .heartbeat .. | .leave .. | .disconnect ..
  | .compact .. | .restoreHistoryVersion .. => True
  | .demote .. | .closeDeleted | .closingTimer .. | .sweepExpired .. | .closeAll .. | .restart =>
    False

/-! ### What the room remembers -/

/-- What the room remembers of the vector the note has now: whether it is the one of
the activation, and the devices that joined since it is there. -/
structure Remembered where
  base : Bool := true
  joined : List String

/-- Whether a restore is applied to the note: it is acknowledged, and not by the record
of an earlier one. -/
def restoreApplied (cfg : RoomConfig D) (r : Room D) (now : Time) (uuid : Uuid) (clientID : ℕ)
    (deviceId userId : String) (versionId : ℕ) (requestId : String) : Bool :=
  (r.data.getOpById requestId).isNone &&
    (r.restoreHistoryVersion cfg ready now uuid clientID deviceId userId versionId
      requestId).result.isOk

/-- What the room remembers after an event. -/
def remember (cfg : RoomConfig D) (r : Room D) (m : Remembered) : RoomEvent D → Remembered
  | .promote now clientID deviceId userId connection =>
    if (r.promote cfg now clientID deviceId userId connection).result.isOk then
      { m with joined := deviceId :: m.joined }
    else m
  | .restoreHistoryVersion now uuid clientID deviceId userId versionId requestId =>
    if restoreApplied cfg r now uuid clientID deviceId userId versionId requestId then
      { base := false, joined := [] }
    else m
  | _ => m

/-- A step of the server, with what its room remembers. -/
def trackStep (cfg : RoomConfig D) (t : RoomServer D × Remembered) (e : RoomEvent D) :
    RoomServer D × Remembered :=
  (roomStep cfg t.1 e, remember cfg t.1.materialize t.2 e)

/-- The room remembers the vector the note has: nothing was restored since the
activation, or somebody who joined after the last restore is there. -/
def StillRemembered (r : Room D) (m : Remembered) : Prop :=
  m.base = true ∨ ∃ participant ∈ r.runtime.participants.rows, participant.deviceId ∈ m.joined

/-- The flush can be applied: the room remembers the vector of the note, the note has no
unresolved conflict, and the op of the epoch is not logged. -/
structure FlushReady (cfg : RoomConfig D) (r : Room D) (m : Remembered) : Prop where
  remembered : StillRemembered r m
  thawed : ∀ row ∈ r.data.getFile cfg.vaultId cfg.fileId, truthy row.conflictId = false
  fresh : r.data.getOpById (r.flushOp cfg).opId = none
  safeEpoch : isSafeInteger r.runtime.persisted.epoch = true

/-! ### Ops of the room that are applied -/

/-- What the validation asks of an op of the room besides its text. -/
structure PlainPayload (op : FileOp) : Prop where
  opId : op.opId ≠ ""
  vaultId : op.vaultId ≠ ""
  fileId : op.fileId ≠ ""
  deviceSeq : 1 ≤ op.deviceSeq
  safeSeq : isSafeInteger op.deviceSeq = true
  newPath : op.newPath = none
  blobRef : op.blobRef = none
  contentEncoding : op.contentEncoding = none

variable {cfg : RoomConfig D} {data : Store} {op : FileOp} {text : String}

theorem validatePayload_of_writesText (data : Store) (hop : WritesText cfg op text)
    (hplain : PlainPayload op) :
    ∃ tx, validatePayload cfg.platform op data = (.ok (), tx) := by
  have hdevice : op.deviceId ≠ "" := by
    rw [hop.deviceId]
    exact fun h => absurd (congrArg String.length h) (by simp)
  have hids : (op.opId = "" || op.deviceId = "" || op.vaultId = "" || op.fileId = "" ||
      !isSafeInteger op.deviceSeq || decide (op.deviceSeq < 1)) = false := by
    have hseq := hplain.deviceSeq
    simp [hplain.opId, hdevice, hplain.vaultId, hplain.fileId, hplain.safeSeq]
    omega
  have hvalid := isValidContentHash_contentHash cfg.platform (encodeText text)
  rw [← contentHashText] at hvalid
  have hne : contentHashText cfg.platform text ≠ "" := ne_empty_of_isValidContentHash hvalid
  unfold validatePayload
  rw [hids, if_neg (by simp), if_neg (by simp [hop.kind]), if_neg (by simp [hplain.newPath])]
  dsimp only
  rw [if_pos (by simp [hop.kind, OpKind.isContent, hop.contentHash, hne])]
  unfold validateContent
  simp [hop.contentHash, hop.inlineText, hvalid, hplain.contentEncoding, hplain.blobRef, checkBlob]

/-- **A new op of the room that dominates a row without a conflict is applied** as a plain
update. -/
theorem accepted_of_writesText {row : StoredFile} (hop : WritesText cfg op text)
    (hplain : PlainPayload op) (hfresh : data.getOpById op.opId = none)
    (hrow : data.getFile cfg.vaultId cfg.fileId = some row)
    (hthawed : truthy row.conflictId = false)
    (hdom : VersionVector.dominates (declaredVV op) row.contentVV = true) (now : Time)
    (uuid : Uuid) :
    ∃ applied, accepted cfg.platform now uuid op none data = some applied ∧
      applied.file = updatedFile now op row ∧ applied.conflictId = none := by
  have hcollab := syntheticCollab_of_writesText hop
  have hcheck : checkDevice op none data = none := by simp [checkDevice, hcollab]
  obtain ⟨tx, hvalid⟩ := validatePayload_of_writesText data hop hplain
  have hget : tx.getFile op.vaultId op.fileId = some row := by
    rw [(validatePayload_ok hvalid).2, (frame_checkedContent op data).1.getFile, hop.vaultId,
      hop.fileId]
    exact hrow
  have hdom' : VersionVector.dominates (op.newContentVV.getD VersionVector.emptyVV)
      row.contentVV = true := hdom
  refine ⟨⟨updatedFile now op row, none,
    updateBlobRefs tx (some row) (updatedFile now op row)⟩, ?_, rfl, rfl⟩
  unfold accepted
  rw [hfresh, hcheck, hvalid]
  dsimp only
  rw [hget]
  simp [applyOp, hcollab, hthawed, hop.kind, requiredFile, applyUpdate, hdom', updatedFile,
    declaredVV, Except.toOption]

/-- An accepted op has a safe sequence. -/
theorem isSafeInteger_of_accepted {P : Platform} {now : Time} {uuid : Uuid}
    {userId : Option String} {s : Store} {applied : Applied}
    (h : accepted P now uuid op userId s = some applied) : isSafeInteger op.deviceSeq = true := by
  by_contra hbeyond
  rw [Bool.not_eq_true] at hbeyond
  have hids : (op.opId = "" || op.deviceId = "" || op.vaultId = "" || op.fileId = "" ||
      !isSafeInteger op.deviceSeq || decide (op.deviceSeq < 1)) = true := by
    rw [hbeyond]
    simp
  unfold accepted validatePayload at h
  rw [hids] at h
  split at h <;> simp [fail] at h

/-! ### What keeps the vectors -/

/-- The calls that leave the vectors alone: the room stays open under its epoch and
base, the note keeps its vector, and nobody joins. -/
structure SameVectors (cfg : RoomConfig D) (r t : Room D) : Prop where
  active : t.runtime.persisted.active = r.runtime.persisted.active
  opened : t.runtime.state = .closed → r.runtime.state = .closed
  epoch : t.runtime.persisted.epoch = r.runtime.persisted.epoch
  base : t.runtime.persisted.activationBaseVV = r.runtime.persisted.activationBaseVV
  row : (t.data.getFile cfg.vaultId cfg.fileId).map StoredFile.contentVV
    = (r.data.getFile cfg.vaultId cfg.fileId).map StoredFile.contentVV
  participants : ∀ p ∈ t.runtime.participants.rows, ∃ q ∈ r.runtime.participants.rows,
    q.deviceId = p.deviceId ∧ q.joinedVV = p.joinedVV

section

variable {r t u : Room D} {busy : RoomSink → Bool} {now : Time} {deviceId userId : String}

theorem SameVectors.refl (cfg : RoomConfig D) (r : Room D) : SameVectors cfg r r :=
  ⟨rfl, id, rfl, rfl, rfl, fun p hp => ⟨p, hp, rfl, rfl⟩⟩

theorem SameVectors.trans (h : SameVectors cfg r t) (h' : SameVectors cfg t u) :
    SameVectors cfg r u where
  active := h'.active.trans h.active
  opened hclosed := h.opened (h'.opened hclosed)
  epoch := h'.epoch.trans h.epoch
  base := h'.base.trans h.base
  row := h'.row.trans h.row
  participants p hp := by
    obtain ⟨q, hq, hid, hvv⟩ := h'.participants p hp
    obtain ⟨o, ho, hid', hvv'⟩ := h.participants q hq
    exact ⟨o, ho, hid'.trans hid, hvv'.trans hvv⟩

theorem contentVV_setActiveUntil (activeUntil : Option Time) :
    ((setActiveUntil cfg.vaultId cfg.fileId activeUntil data).getFile cfg.vaultId
        cfg.fileId).map StoredFile.contentVV
      = (data.getFile cfg.vaultId cfg.fileId).map StoredFile.contentVV := by
  rw [getFile_setActiveUntil, Option.map_map]
  rfl

omit [SemilatticeSup D] [OrderBot D] in
theorem exists_participant_set {participants : Table Participant.deviceId}
    {participant counted : Participant}
    (hget : participants.get? deviceId = some participant)
    (hid : counted.deviceId = participant.deviceId)
    (hvv : counted.joinedVV = participant.joinedVV) :
    ∀ p ∈ (participants.set counted).rows, ∃ q ∈ participants.rows,
      q.deviceId = p.deviceId ∧ q.joinedVV = p.joinedVV := by
  intro p hp
  rcases Table.mem_set_iff.mp hp with rfl | ⟨hp, -⟩
  · exact ⟨participant, Table.mem_of_get? hget, hid.symm, hvv.symm⟩
  · exact ⟨p, hp, rfl, rfl⟩

theorem sameVectors_handleUpdate {roomEpoch updateId : ℕ} {update : D} :
    SameVectors cfg r
      (r.handleUpdate cfg busy now deviceId userId roomEpoch updateId update).room := by
  have hcounted : ∀ {participant : Participant},
      r.runtime.participants.get? deviceId = some participant →
      SameVectors cfg r (r.withParticipant (Room.checkRateLimit cfg now participant).1) := by
    intro participant hget
    refine ⟨rfl, id, rfl, rfl, rfl, ?_⟩
    apply exists_participant_set hget <;> rw [Room.checkRateLimit_fst]
  rcases r.handleUpdate_cases with hroom | ⟨participant, hget, -, -, hroom | hallowed⟩
  · rw [hroom]
    exact .refl cfg r
  · rw [hroom]
    exact hcounted hget
  · rw [Room.handleUpdate_of_allowed hallowed]
    refine (hcounted hget).trans ?_
    unfold Room.acceptUpdate
    dsimp only
    split <;> exact ⟨rfl, id, rfl, rfl, contentVV_setActiveUntil _, fun p hp => ⟨p, hp, rfl, rfl⟩⟩

theorem sameVectors_heartbeat {roomEpoch : ℕ} :
    SameVectors cfg r (r.heartbeat cfg now deviceId roomEpoch).room := by
  rcases r.heartbeat_cases with hroom | ⟨-, hroom⟩ <;> rw [hroom]
  · exact .refl cfg r
  · exact ⟨rfl, id, rfl, rfl, contentVV_setActiveUntil _, fun p hp => ⟨p, hp, rfl, rfl⟩⟩

omit [SemilatticeSup D] [OrderBot D] in
theorem mem_participants_erase {participants : Table Participant.deviceId} {p : Participant}
    (hp : p ∈ (participants.erase deviceId).rows) :
    ∃ q ∈ participants.rows, q.deviceId = p.deviceId ∧ q.joinedVV = p.joinedVV :=
  ⟨p, (Table.mem_erase_iff.mp hp).1, rfl, rfl⟩

theorem sameVectors_removeParticipant (r : Room D) (participant : Participant) :
    SameVectors cfg r (r.removeParticipant participant) := by
  unfold Room.removeParticipant Room.scheduleClosingIfEmpty
  split
  · exact ⟨rfl, nofun, rfl, rfl, rfl, fun p => mem_participants_erase⟩
  · exact ⟨rfl, id, rfl, rfl, rfl, fun p => mem_participants_erase⟩

theorem sameVectors_leave {roomEpoch : ℕ} :
    SameVectors cfg r (r.leave deviceId roomEpoch).room := by
  rcases r.leave_cases with hroom | ⟨participant, -, hroom⟩ <;> rw [hroom]
  · exact .refl cfg r
  · exact sameVectors_removeParticipant r participant

theorem sameVectors_disconnect : SameVectors cfg r (r.disconnect deviceId) := by
  rcases r.disconnect_cases with ⟨-, hroom⟩ | ⟨participant, -, hroom⟩ <;> rw [hroom]
  · exact .refl cfg r
  · exact sameVectors_removeParticipant r participant

theorem sameVectors_compact {throughSeq : Option ℕ} :
    SameVectors cfg r (r.compact cfg now throughSeq).room :=
  ⟨rfl, id, rfl, rfl, contentVV_setActiveUntil _, fun p hp => ⟨p, hp, rfl, rfl⟩⟩

theorem sameVectors_replaceText (busy : RoomSink → Bool) {clientID : ℕ} :
    SameVectors cfg r (r.replaceText cfg busy now clientID deviceId userId text).1 :=
  ⟨rfl, id, rfl, rfl, contentVV_setActiveUntil _, fun p hp => ⟨p, hp, rfl, rfl⟩⟩

theorem sameVectors_data (r : Room D)
    (hrow : (data.getFile cfg.vaultId cfg.fileId).map StoredFile.contentVV
      = (r.data.getFile cfg.vaultId cfg.fileId).map StoredFile.contentVV) :
    SameVectors cfg r { r with data } :=
  ⟨rfl, id, rfl, rfl, hrow, fun p hp => ⟨p, hp, rfl, rfl⟩⟩

/-- An op that is not accepted leaves the vector of the note. -/
theorem contentVV_of_not_accepted {uuid : Uuid} {userId : Option String} {s : Store}
    (h : accepted cfg.platform now uuid op userId s = none) :
    ((process cfg.platform now uuid op userId s).2.getFile cfg.vaultId cfg.fileId).map
        StoredFile.contentVV = (s.getFile cfg.vaultId cfg.fileId).map StoredFile.contentVV := by
  rw [(frame_of_not_accepted h).1.getFile]

/-- A restore leaves the vectors alone, or it is applied and moves the vector of the
note by one under the name of the room. -/
theorem restoreHistoryVersion_known (cfg : RoomConfig D) {uuid : Uuid} {clientID versionId : ℕ}
    {requestId : String} :
    (restoreApplied cfg r now uuid clientID deviceId userId versionId requestId = false ∧
      SameVectors cfg r (r.restoreHistoryVersion cfg ready now uuid clientID deviceId userId
        versionId requestId).room) ∨
    restoreApplied cfg r now uuid clientID deviceId userId versionId requestId = true ∧
      ∃ data row, r.data.getFile cfg.vaultId cfg.fileId = some row ∧
        (data.getFile cfg.vaultId cfg.fileId).map StoredFile.contentVV
          = some (VersionVector.bump row.contentVV ("collab:" ++ cfg.fileId)) ∧
        SameVectors cfg { r with data } (r.restoreHistoryVersion cfg ready now uuid clientID
          deviceId userId versionId requestId).room := by
  unfold restoreApplied Room.restoreHistoryVersion
  split
  · exact Or.inl ⟨by simp [Except.isOk, Except.toBool], .refl cfg r⟩
  split
  · exact Or.inl ⟨by simp [Except.isOk, Except.toBool], .refl cfg r⟩
  next file hfile =>
  obtain ⟨hrow, -⟩ := of_requiredLiveFile hfile
  split
  · exact Or.inl ⟨by simp [fail, Except.isOk, Except.toBool], .refl cfg r⟩
  next version hversion =>
  dsimp only
  have hop : WritesText cfg
      (Room.restoreOp cfg file (textFromSnapshot cfg version.snapshot) requestId)
      (textFromSnapshot cfg version.snapshot) := writesText_restoreOp file requestId
  generalize hopdef : Room.restoreOp cfg file (textFromSnapshot cfg version.snapshot) requestId = op
    at hop
  have hid : op.opId = requestId := by rw [← hopdef]; rfl
  cases ha : accepted cfg.platform now uuid op none r.data with
  | none =>
    have hsame := sameVectors_data r (contentVV_of_not_accepted ha)
    -- it is not both new and acknowledged
    split
    · next e data hprocess =>
      rw [hprocess] at hsame
      exact Or.inl ⟨by simp [Except.isOk, Except.toBool], hsame⟩
    · next answer data hprocess =>
      rw [hprocess] at hsame
      exact Or.inl ⟨by simp [fail, Except.isOk, Except.toBool], hsame⟩
    · next answer data hprocess =>
      rw [hprocess] at hsame
      refine Or.inl ⟨?_, hsame.trans (sameVectors_replaceText ready)⟩
      rw [Bool.and_eq_false_iff]
      refine Or.inl ?_
      cases hget : r.data.getOpById requestId with
      | some logged => rfl
      | none =>
        obtain ⟨applied, ha', -⟩ := accepted_of_ack (syntheticCollab_of_writesText hop)
          (by rw [hid]; exact hget) hprocess
        rw [ha] at ha'
        simp at ha'
  | some applied =>
    have hspec := accepted_spec ha
    have hagrees : AgreesWithRow cfg r.data (declaredVV op) := by
      rw [← hopdef]
      exact agreesWithRow_restoreOp hrow
    obtain ⟨row, hrow', hfile'⟩ := file_of_writesText hop hagrees ha
    obtain rfl : file = row := by simpa [hrow] using hrow'
    have hkey : applied.file.key = (cfg.vaultId, cfg.fileId) := by
      rw [key_of_effect hspec.effect, hop.vaultId, hop.fileId]
    rw [process_of_accepted ha]
    dsimp only
    refine Or.inr ⟨?_, (commit now op (opDevice op r.data) applied).2, file, hrow, ?_,
      sameVectors_replaceText ready⟩
    · have hfresh := hspec.fresh
      rw [hid] at hfresh
      rw [hfresh]
      rfl
    · rw [Store.getFile, commit_files, Table.get?_set, if_pos hkey, hfile', ← hopdef]
      rfl

/-- An event of the store during an activation leaves the vector of the note. -/
theorem contentVV_layer1 {s : RoomServer D} {event : ServerEvent}
    (hduring : DuringActivation cfg s (.layer1 event)) :
    ((serverStep cfg.platform s.data event).getFile cfg.vaultId cfg.fileId).map
        StoredFile.contentVV
      = (s.data.getFile cfg.vaultId cfg.fileId).map StoredFile.contentVV := by
  rw [getFile_serverStep]
  cases hw : writtenFile cfg.platform s.data event with
  | none => rfl
  | some file =>
    dsimp only
    split
    case isFalse => rfl
    next hkey =>
    cases event with
    | process now uuid op userId =>
      obtain ⟨applied, ha, rfl⟩ := Option.map_eq_some_iff.mp hw
      have heffect := (accepted_spec ha).effect
      have hids := (key_of_effect heffect).symm.trans hkey
      obtain ⟨hvault, hfile⟩ := Prod.mk.inj hids
      have hkind : op.kind.isContent = false := by
        by_contra hcontent
        have hnone := hduring hvault hfile (by simpa using hcontent)
        rw [ha] at hnone
        simp at hnone
      have hrow : opRow op s.data = s.data.getFile cfg.vaultId cfg.fileId := by
        rw [opRow, hvault, hfile]
      cases heffect with
      | created kind => simp [kind, OpKind.isContent] at hkind
      | updated row kind =>
        rcases kind with ⟨kind, -⟩ | kind <;> simp [kind, OpKind.isContent] at hkind
      | conflicted row kind =>
        rcases kind with ⟨kind, -⟩ | kind <;> simp [kind, OpKind.isContent] at hkind
      | restored row kind => simp [kind, OpKind.isContent] at hkind
      | lostRename row => rw [← hrow, row]
      | renamed row | deleted row =>
        rw [← hrow, row]
        rfl
    | resolve now input =>
      obtain ⟨r, hr, rfl⟩ := Option.map_eq_some_iff.mp hw
      exact absurd hkey (hduring r hr)
    | claim | release | saveDevice | setRole | saveBlob | putContent =>
      simp [writtenFile] at hw

end

/-! ### Dormant rooms -/

/-- Nobody is in a dormant room, and only a dormant one is closed. -/
structure DormantEmpty (r : Room D) : Prop where
  closed : r.runtime.state = .closed → r.runtime.persisted.active = false
  empty : r.runtime.persisted.active = false → r.runtime.participants.rows = []

section

variable {r t : Room D} {busy : RoomSink → Bool} {now : Time} {deviceId userId : String}
  {uuid : Uuid}

omit [SemilatticeSup D] [OrderBot D] in
theorem DormantEmpty.of_active (hopen : t.runtime.state ≠ .closed)
    (hactive : t.runtime.persisted.active = true) : DormantEmpty t :=
  ⟨fun hclosed => absurd hclosed hopen,
    fun hdormant => absurd (hactive.symm.trans hdormant) (by decide)⟩

theorem DormantEmpty.mono (h : DormantEmpty r) (hsame : SameVectors cfg r t) :
    DormantEmpty t where
  closed hclosed := hsame.active.trans (h.closed (hsame.opened hclosed))
  empty hdormant := by
    have hnone := h.empty (hsame.active.symm.trans hdormant)
    rw [List.eq_nil_iff_forall_not_mem]
    intro p hp
    obtain ⟨q, hq, -⟩ := hsame.participants p hp
    rw [hnone] at hq
    exact List.not_mem_nil hq

theorem dormantEmpty_join {file : StoredFile} {connection : ℕ}
    (hactive : r.runtime.persisted.active = true) :
    DormantEmpty (r.join cfg now file deviceId userId connection).room := by
  rcases r.join_cases with ⟨e, hjoin⟩ | ⟨role, joined, rfl, hjoin⟩ <;> rw [hjoin]
  · exact .of_active nofun hactive
  · exact .of_active nofun hactive

theorem dormantEmpty_promote {clientID connection : ℕ} (h : DormantEmpty r) :
    DormantEmpty (r.promote cfg now clientID deviceId userId connection).room := by
  rcases r.promote_cases with ⟨hroom, -⟩ | ⟨file, -, -, hroom⟩
  · rw [hroom]
    exact h
  · have hactive : (if r.activates then r.activate cfg now clientID file deviceId
        else r).runtime.persisted.active = true := by
      cases hactivates : r.activates with
      | true => rfl
      | false => exact active_of_not_activates hactivates
    rw [hroom]
    exact dormantEmpty_join hactive

theorem dormantEmpty_demoteLocked {reason : RoomClosedReason} (h : DormantEmpty r) :
    DormantEmpty (r.demoteLocked cfg busy now uuid reason).room := by
  rcases r.demoteLocked_cases with
    ⟨-, hroom⟩ | ⟨-, ⟨data, -, -, hroom⟩ | ⟨answer, data, -, hroom⟩⟩ <;> rw [hroom]
  · exact h
  · exact ⟨h.closed, h.empty⟩
  · exact ⟨fun _ => rfl, fun _ => rfl⟩

theorem dormantEmpty_flush (h : DormantEmpty r) (hflush : Room.FlushOf cfg busy now uuid r t) :
    DormantEmpty t := by
  rcases hflush with rfl | ⟨reason, rfl | ⟨hactive, ⟨e, he⟩, rfl⟩⟩
  · exact h
  · exact dormantEmpty_demoteLocked h
  · -- a flush that failed has left the room open
    refine .of_active (by simp) ?_
    rcases r.demoteLocked_cases with
      ⟨hno, -⟩ | ⟨-, ⟨data, -, -, hroom⟩ | ⟨answer, data, hack, -⟩⟩
    · exact absurd (hactive.symm.trans hno) (by decide)
    · rw [hroom]
      exact hactive
    · simp [Room.demoteLocked, hactive, hack] at he

theorem dormantEmpty_closeDeleted (h : DormantEmpty r) :
    DormantEmpty (r.closeDeleted cfg busy).room := by
  unfold Room.closeDeleted
  split
  · exact ⟨fun _ => rfl, fun _ => rfl⟩
  · exact h

theorem dormantEmpty_restoreHistoryVersion {clientID versionId : ℕ} {requestId : String}
    (h : DormantEmpty r) :
    DormantEmpty (r.restoreHistoryVersion cfg ready now uuid clientID deviceId userId versionId
      requestId).room := by
  rcases restoreHistoryVersion_known cfg with ⟨-, hsame⟩ | ⟨-, data, row, -, -, hsame⟩
  · exact h.mono hsame
  · exact DormantEmpty.mono (r := { r with data }) ⟨h.closed, h.empty⟩ hsame

end

/-- **In every state nobody is in a dormant room.** -/
theorem dormantEmpty_roomStep {s : RoomServer D} (h : DormantEmpty s.materialize)
    (e : RoomEvent D) : DormantEmpty (roomStep cfg s e).materialize := by
  cases e with
  | layer1 event => exact ⟨h.closed, h.empty⟩
  | promote => exact dormantEmpty_promote h
  | handleUpdate => exact h.mono (sameVectors_handleUpdate : SameVectors cfg _ _)
  | handleSync deviceId roomEpoch stateVector =>
    have hroom := s.materialize.handleSync_room cfg deviceId roomEpoch stateVector
    simpa only [roomStep, materialize_server, hroom] using h
  | heartbeat => exact h.mono (sameVectors_heartbeat : SameVectors cfg _ _)
  | leave => exact h.mono (sameVectors_leave : SameVectors cfg _ _)
  | disconnect =>
    exact materialize_inMemory h (h.mono (sameVectors_disconnect : SameVectors cfg _ _))
  | demote => exact dormantEmpty_flush h (Room.flushOf_demote _)
  | closeDeleted => exact dormantEmpty_closeDeleted h
  | closingTimer => exact materialize_inMemory h (dormantEmpty_flush h Room.flushOf_closingTimer)
  | sweepExpired => exact materialize_inMemory h (dormantEmpty_flush h Room.flushOf_sweepExpired)
  | closeAll => exact materialize_inMemory h (dormantEmpty_flush h Room.flushOf_closeAll)
  | compact => exact h.mono (sameVectors_compact : SameVectors cfg _ _)
  | restoreHistoryVersion => exact dormantEmpty_restoreHistoryVersion h
  | restart =>
    refine ⟨?_, fun _ => rfl⟩
    intro hclosed
    by_contra hactive
    rw [Bool.not_eq_false] at hactive
    have hopen : (loadRuntime s.roomStore).state = .active := if_pos hactive
    exact absurd (hclosed.symm.trans hopen) (by decide)

/-! ### What the room knows -/

/-- A vector the room remembers: that of the note but for the room's own counter, which
is behind unless it is `current`. -/
structure Knows (own : String) (known vv : VersionVector) (current : Prop) : Prop where
  others : ∀ d, d ≠ own → VersionVector.counterFor known d = VersionVector.counterFor vv d
  le : VersionVector.counterFor known own ≤ VersionVector.counterFor vv own
  current_iff : VersionVector.counterFor known own = VersionVector.counterFor vv own ↔ current

theorem Knows.self (own : String) (vv : VersionVector) {current : Prop} (h : current) :
    Knows own vv vv current :=
  ⟨fun _ _ => rfl, le_rfl, iff_of_true rfl h⟩

/-- After the note moved under the name of the room no vector is the current one. -/
theorem Knows.bump {own : String} {known vv : VersionVector} {current current' : Prop}
    (h : Knows own known vv current) (hnot : ¬ current') :
    Knows own known (VersionVector.bump vv own) current' := by
  have hle := h.le
  refine ⟨?_, ?_, ?_⟩
  · intro d hd
    rw [VersionVector.counterFor_bump, if_neg hd.symm]
    exact h.others d hd
  · rw [VersionVector.counterFor_bump, if_pos rfl]
    omega
  · rw [VersionVector.counterFor_bump, if_pos rfl]
    exact iff_of_false (by omega) hnot

theorem Knows.congr {own : String} {known vv : VersionVector} {current current' : Prop}
    (h : Knows own known vv current) (hiff : current ↔ current') : Knows own known vv current' :=
  ⟨h.others, h.le, h.current_iff.trans hiff⟩

/-- What holds during an activation: the room is active, and the vectors it remembers are
those of the note but for its own counter. -/
structure VectorsKnown (cfg : RoomConfig D) (r : Room D) (m : Remembered) : Prop where
  active : r.runtime.persisted.active = true
  epoch : 1 ≤ r.runtime.persisted.epoch
  known : ∃ vv, (r.data.getFile cfg.vaultId cfg.fileId).map StoredFile.contentVV = some vv ∧
    Knows ("collab:" ++ cfg.fileId) r.runtime.persisted.activationBaseVV vv (m.base = true) ∧
    ∀ p ∈ r.runtime.participants.rows,
      Knows ("collab:" ++ cfg.fileId) p.joinedVV vv (m.base = true ∨ p.deviceId ∈ m.joined)

section

variable {r t : Room D} {m : Remembered} {now : Time} {deviceId userId : String} {uuid : Uuid}

theorem VectorsKnown.mono (h : VectorsKnown cfg r m) (hsame : SameVectors cfg r t) :
    VectorsKnown cfg t m := by
  obtain ⟨vv, hrow, hbase, hjoined⟩ := h.known
  refine ⟨hsame.active.trans h.active, ?_, vv, hsame.row.trans hrow, ?_, ?_⟩
  · rw [hsame.epoch]
    exact h.epoch
  · rw [hsame.base]
    exact hbase
  · intro p hp
    obtain ⟨q, hq, hid, hvv⟩ := hsame.participants p hp
    rw [← hid, ← hvv]
    exact hjoined q hq

/-- Joining an active room that knows the vectors. -/
theorem vectorsKnown_join {file : StoredFile} {connection : ℕ} (h : VectorsKnown cfg r m)
    (hvv : (r.data.getFile cfg.vaultId cfg.fileId).map StoredFile.contentVV
      = some file.contentVV) :
    VectorsKnown cfg (r.join cfg now file deviceId userId connection).room
      (if (r.join cfg now file deviceId userId connection).result.isOk then
        { m with joined := deviceId :: m.joined }
      else m) := by
  obtain ⟨vv, hvv', hbase, hjoined⟩ := h.known
  obtain rfl : file.contentVV = vv := by simpa [hvv] using hvv'
  have hsaved : ((setActiveUntil cfg.vaultId cfg.fileId
      (if r.runtime.persisted.active then some (now + cfg.options.leaseMs) else none)
      r.data).getFile cfg.vaultId cfg.fileId).map StoredFile.contentVV = some file.contentVV :=
    (contentVV_setActiveUntil _).trans hvv
  rcases r.join_cases with ⟨e, hjoin⟩ | ⟨role, joined, rfl, hjoin⟩ <;> rw [hjoin]
  · exact ⟨h.active, h.epoch, file.contentVV, hsaved, hbase, hjoined⟩
  · refine ⟨h.active, h.epoch, file.contentVV, hsaved, hbase, ?_⟩
    intro p hp
    rcases Table.mem_set_iff.mp hp with rfl | ⟨hp, hne⟩
    · exact Knows.self _ _ (Or.inr List.mem_cons_self)
    · refine (hjoined p hp).congr ?_
      show _ ↔ m.base = true ∨ p.deviceId ∈ deviceId :: m.joined
      rw [List.mem_cons, or_iff_right (show p.deviceId ≠ deviceId from hne)]

/-- Activating a dormant room that nobody is in. -/
theorem vectorsKnown_activate {file : StoredFile} {clientID : ℕ}
    (hempty : r.runtime.participants.rows = [])
    (hrow : r.data.getFile cfg.vaultId cfg.fileId = some file) :
    VectorsKnown cfg (r.activate cfg now clientID file deviceId) { joined := [] } := by
  refine ⟨rfl, ?_, file.contentVV, ?_, Knows.self _ _ rfl, ?_⟩
  · show 1 ≤ if r.runtime.persisted.seeded then r.runtime.persisted.epoch + 1
      else max 1 (r.runtime.persisted.epoch + 1)
    split <;> omega
  · exact (contentVV_setActiveUntil _).trans (by rw [hrow]; rfl)
  · intro p hp
    exact absurd (hempty ▸ hp) List.not_mem_nil

/-- A promotion of an active room. -/
theorem vectorsKnown_promote {clientID connection : ℕ} (hdormant : DormantEmpty r)
    (h : VectorsKnown cfg r m) :
    VectorsKnown cfg (r.promote cfg now clientID deviceId userId connection).room
      (remember cfg r m (.promote now clientID deviceId userId connection)) := by
  show VectorsKnown cfg _ (if (r.promote cfg now clientID deviceId userId connection).result.isOk
    then { m with joined := deviceId :: m.joined } else m)
  rcases r.promote_cases with ⟨hroom, -, e, he⟩ | ⟨file, hrow, -, hpromote⟩
  · rw [hroom, he]
    exact h
  · have hactivates : r.activates = false := by
      have hopen : r.runtime.state ≠ .closed := fun hclosed =>
        absurd (h.active.symm.trans (hdormant.closed hclosed)) (by decide)
      simp [Room.activates, h.active, hopen]
    rw [hpromote, hactivates]
    have hvv : (r.data.getFile cfg.vaultId cfg.fileId).map StoredFile.contentVV
        = some file.contentVV := by rw [hrow, Option.map_some]
    exact vectorsKnown_join h hvv

theorem vectorsKnown_restoreHistoryVersion {clientID versionId : ℕ} {requestId : String}
    (h : VectorsKnown cfg r m) :
    VectorsKnown cfg
      (r.restoreHistoryVersion cfg ready now uuid clientID deviceId userId versionId
        requestId).room
      (remember cfg r m
        (.restoreHistoryVersion now uuid clientID deviceId userId versionId requestId)) := by
  show VectorsKnown cfg _
    (if restoreApplied cfg r now uuid clientID deviceId userId versionId requestId then
      { base := false, joined := [] } else m)
  rcases restoreHistoryVersion_known cfg with
    ⟨hnot, hsame⟩ | ⟨happlied, data, row, hrow, hdata, hsame⟩
  · rw [hnot]
    exact h.mono hsame
  · rw [happlied]
    -- the note has moved, and the room remembers older vectors only
    obtain ⟨vv, hvv, hbase, hjoined⟩ := h.known
    obtain rfl : row.contentVV = vv := by simpa [hrow] using hvv
    have hmoved : VectorsKnown cfg { r with data } { base := false, joined := [] } :=
      ⟨h.active, h.epoch, _, hdata, hbase.bump (by decide),
        fun p hp => (hjoined p hp).bump (by simp)⟩
    exact hmoved.mono hsame

end

/-- **Every event of an activation keeps what the room knows.** -/
theorem vectorsKnown_trackStep {t : RoomServer D × Remembered} {e : RoomEvent D}
    (hdormant : DormantEmpty t.1.materialize) (h : VectorsKnown cfg t.1.materialize t.2)
    (hduring : DuringActivation cfg t.1 e) :
    VectorsKnown cfg (trackStep cfg t e).1.materialize (trackStep cfg t e).2 := by
  cases e with
  | layer1 event => exact h.mono (sameVectors_data _ (contentVV_layer1 hduring))
  | promote => exact vectorsKnown_promote hdormant h
  | handleUpdate => exact h.mono sameVectors_handleUpdate
  | handleSync deviceId roomEpoch stateVector =>
    have hroom := t.1.materialize.handleSync_room cfg deviceId roomEpoch stateVector
    simpa only [trackStep, remember, roomStep, materialize_server, hroom] using h
  | heartbeat => exact h.mono sameVectors_heartbeat
  | leave => exact h.mono sameVectors_leave
  | disconnect =>
    exact materialize_inMemory (I := fun r => VectorsKnown cfg r t.2) h
      (h.mono sameVectors_disconnect)
  | compact => exact h.mono sameVectors_compact
  | restoreHistoryVersion => exact vectorsKnown_restoreHistoryVersion h
  | demote | closeDeleted | closingTimer | sweepExpired | closeAll | restart => exact hduring.elim

/-! ### The flush -/

section

variable {r : Room D} {m : Remembered}

theorem plainPayload_flushOp (hvault : cfg.vaultId ≠ "") (hfile : cfg.fileId ≠ "")
    (hepoch : 1 ≤ r.runtime.persisted.epoch)
    (hsafe : isSafeInteger r.runtime.persisted.epoch = true) : PlainPayload (r.flushOp cfg) := by
  have hne : ∀ digits : String, "00000000-0000-4000-8000-" ++ digits ≠ "" := by
    intro digits hid
    have hlen := congrArg String.length hid
    simp at hlen
  exact ⟨hne _, hvault, hfile, hepoch, hsafe, rfl, rfl, rfl⟩

/-- The vector of a flush has the counters of the note's but for the room's own, which is
above the note's exactly if the room remembers the vector of the note. -/
theorem strictlyDominates_flushOp {row : StoredFile} (h : VectorsKnown cfg r m)
    (hrow : r.data.getFile cfg.vaultId cfg.fileId = some row) :
    VersionVector.strictlyDominates (declaredVV (r.flushOp cfg)) row.contentVV = true ↔
      StillRemembered r m := by
  obtain ⟨vv, hvv, hbase, hjoined⟩ := h.known
  obtain rfl : row.contentVV = vv := by simpa [hrow] using hvv
  have hdeclared : declaredVV (r.flushOp cfg) = VersionVector.bump
      (r.runtime.participants.rows.foldl (fun vv p => VersionVector.join vv p.joinedVV)
        r.runtime.persisted.activationBaseVV) ("collab:" ++ cfg.fileId) := rfl
  have hfold := VersionVector.counterFor_foldl_join_lt_iff Participant.joinedVV
    r.runtime.participants.rows r.runtime.persisted.activationBaseVV
  rw [hdeclared, VersionVector.strictlyDominates_iff_of_agree (c := "collab:" ++ cfg.fileId)]
  · rw [VersionVector.counterFor_bump, if_pos rfl, Nat.lt_succ_iff, ← Nat.not_lt, hfold,
      StillRemembered, not_and_or, not_forall]
    -- a remembered counter is not behind exactly if it is current
    have hnot : ∀ {known : VersionVector} {current : Prop},
        Knows ("collab:" ++ cfg.fileId) known row.contentVV current →
        (¬ VersionVector.counterFor known ("collab:" ++ cfg.fileId)
          < VersionVector.counterFor row.contentVV ("collab:" ++ cfg.fileId) ↔ current) := by
      intro known current hknows
      rw [← hknows.current_iff]
      have hle := hknows.le
      omega
    rw [hnot hbase]
    constructor
    · rintro (hcurrent | ⟨p, hp⟩)
      · exact Or.inl hcurrent
      · rw [Classical.not_imp] at hp
        rcases (hnot (hjoined p hp.1)).mp hp.2 with hcurrent | hmem
        · exact Or.inl hcurrent
        · exact Or.inr ⟨p, hp.1, hmem⟩
    · rintro (hcurrent | ⟨p, hp, hmem⟩)
      · exact Or.inl hcurrent
      · exact Or.inr ⟨p, fun hall => (hnot (hjoined p hp)).mpr (Or.inr hmem) (hall hp)⟩
  · intro d hd
    rw [VersionVector.counterFor_bump, if_neg hd.symm]
    have hlt := (hfold d (VersionVector.counterFor row.contentVV d + 1)).mpr
      ⟨by rw [hbase.others d hd]; omega, fun p hp => by rw [(hjoined p hp).others d hd]; omega⟩
    have hge : ¬ _ < VersionVector.counterFor row.contentVV d := fun hlt =>
      absurd ((hfold d _).mp hlt).1 (by rw [hbase.others d hd]; omega)
    omega

/-- **The flush is applied exactly if it is ready.** -/
theorem flushApplied_iff (hvault : cfg.vaultId ≠ "") (hfile : cfg.fileId ≠ "")
    (h : VectorsKnown cfg r m) : FlushApplied cfg r ↔ FlushReady cfg r m := by
  have hop : WritesText cfg (r.flushOp cfg) _ := writesText_flushOp r
  constructor
  · rintro ⟨row, hrow, hdom, happlied⟩
    obtain ⟨applied, ha, -⟩ := happlied 0 sampleUuid
    have hspec := accepted_spec ha
    have hopRow : opRow (r.flushOp cfg) r.data = r.data.getFile cfg.vaultId cfg.fileId := rfl
    refine ⟨(strictlyDominates_flushOp h hrow).mp hdom, ?_, hspec.fresh,
      isSafeInteger_of_accepted ha⟩
    rw [← hopRow]
    exact hspec.unguarded.notFrozen (by rw [hop.kind]; rfl)
  · intro hready
    obtain ⟨vv, hvv, -⟩ := h.known
    obtain ⟨row, hrow, -⟩ := Option.map_eq_some_iff.mp hvv
    have hdom := (strictlyDominates_flushOp h hrow).mpr hready.remembered
    have hweak := hdom
    rw [VersionVector.strictlyDominates, Bool.and_eq_true] at hweak
    exact ⟨row, hrow, hdom, accepted_of_writesText hop
      (plainPayload_flushOp hvault hfile h.epoch hready.safeEpoch) hready.fresh hrow
      (hready.thawed row hrow) hweak.1⟩

end

/-! ### Runs -/

/-- The room after a promotion that activates it, and what it remembers then. -/
def activation (cfg : RoomConfig D) (s : RoomServer D) (now : Time) (clientID : ℕ)
    (deviceId userId : String) (connection : ℕ) : RoomServer D × Remembered :=
  (roomStep cfg s (.promote now clientID deviceId userId connection), { joined := [deviceId] })

theorem vectorsKnown_activation {s : RoomServer D} {now : Time} {clientID : ℕ}
    {deviceId userId : String} {connection : ℕ} (hdormant : DormantEmpty s.materialize)
    (hactivates : s.materialize.activates = true)
    (hjoined : (s.materialize.promote cfg now clientID deviceId userId connection).result.isOk
      = true) :
    VectorsKnown cfg (activation cfg s now clientID deviceId userId connection).1.materialize
      (activation cfg s now clientID deviceId userId connection).2 := by
  rcases s.materialize.promote_cases with ⟨-, -, e, he⟩ | ⟨file, hrow, -, hpromote⟩
  · rw [he] at hjoined
    exact nomatch hjoined
  · rw [hactivates, if_pos rfl] at hpromote
    have hactive : s.materialize.runtime.persisted.active = false := by
      unfold Room.activates at hactivates
      rw [Bool.or_eq_true, Bool.not_eq_true', decide_eq_true_eq] at hactivates
      exact hactivates.elim id hdormant.closed
    have hknown : VectorsKnown cfg (s.materialize.activate cfg now clientID file deviceId)
        { joined := [] } := vectorsKnown_activate (hdormant.empty hactive) hrow
    have hvv : ((s.materialize.activate cfg now clientID file deviceId).data.getFile cfg.vaultId
        cfg.fileId).map StoredFile.contentVV = some file.contentVV :=
      (contentVV_setActiveUntil _).trans (by rw [hrow, Option.map_some])
    have hjoin : VectorsKnown cfg
        ((s.materialize.activate cfg now clientID file deviceId).join cfg now file deviceId userId
          connection).room _ := vectorsKnown_join hknown hvv
    rw [← hpromote, hjoined, if_pos rfl] at hjoin
    exact hjoin

end

/-! ### A version is restored twice -/

/-- The room of the sample note after the second device opened it. -/
def sampleActivation : RoomServer (Finset Write) × Remembered :=
  activation sampleRoom (Run.final (roomStep sampleRoom) { data := sampleStore } [sampleCreate]) 2 7
    "d2" "u" 0

/-- The id of a request. -/
def sampleRequestId : String := "00000000-0000-4000-8000-000000000001"

/-- The first version is restored, and restored again. -/
def sampleRestores : List (RoomEvent (Finset Write)) :=
  [.restoreHistoryVersion 3 sampleUuid 8 "d2" "u" 0 sampleRequestId,
   .restoreHistoryVersion 4 sampleUuid 9 "d2" "u" 0 "00000000-0000-4000-8000-000000000002"]

end ObsidianSync
