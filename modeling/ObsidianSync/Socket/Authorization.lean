import ObsidianSync.Socket.Messages

/-!
# Who may still read and write

A connection is checked when it says `hello`; later the device may be revoked, its user may
lose the membership of the vault or be left with reading.  Some handlers look at the device
and the role again, some at one of the two, and some at neither.

## Main definitions

* `Barred`, `Viewer` — what the tables say when a message is handled.
* `Authorized` — a barred connection is answered without data of the vault and changes
  nothing that is stored; a viewer changes no file, op, conflict, blob or room.
* `Checked` — the handler checks what it must, or comes to nothing it had to check for.
* `LiveServer`, `LiveEvent`, `liveStep` — the server with its connections, and what happens.

## Main results

* `authorized_of_checked` — a checked message is authorized.
* `authorized_run` — **in every run in which messages are checked they are authorized.**
* `not_authorized_revokedReader` — a revoked device is sent the ops of its vault.
-/

namespace ObsidianSync

/-! ### What the tables say -/

/-- The device is revoked, or its user is no member of the vault. -/
def Barred (connection : Connection) (data : Store) : Prop :=
  (data.getDevice connection.deviceId).any StoredDevice.revoked = true ∨
    data.getRole connection.vaultId connection.userId = none

/-- The user may only read. -/
def Viewer (connection : Connection) (data : Store) : Prop :=
  data.getRole connection.vaultId connection.userId = some .viewer

instance (connection : Connection) (data : Store) : Decidable (Barred connection data) :=
  inferInstanceAs (Decidable (_ ∨ _))

instance (connection : Connection) (data : Store) : Decidable (Viewer connection data) :=
  inferInstanceAs (Decidable (_ = _))

/-- Neither barred nor a viewer. -/
def MayWrite (connection : Connection) (data : Store) : Prop :=
  ¬ Barred connection data ∧ ¬ Viewer connection data

/-- What an access token says.  The ids of users and devices are UUIDs of their tables. -/
structure AccessClaims extends Connection where
  user : userId ≠ ""
  device : ∀ fileId, deviceId ≠ "collab:" ++ fileId

section

variable {D : Type} [SemilatticeSup D] [OrderBot D]

/-! ### The property -/

/-- Whether a message carries data of the vault: ops, manifest, content, trash, history or the
state of a room. -/
def SocketMessage.carriesVaultData : SocketMessage D → Bool
  | .layer1 (.ops ops _) => !ops.isEmpty
  | .layer1 _ | .blobUploadUrl .. => false
  | .manifestPage .. => true
  | .content _ data => data.isSome
  | .trashList items => !items.isEmpty
  | .room (.roomState ..) | .room (.yjsUpdate ..) | .room (.historyRestored ..) => true
  | .room (.yjsAck ..) | .room (.roomClosed ..) | .room (.error _) => false
  | .historyList .. | .historyVersion .. | .historyRestored .. => true

/-- What is stored about a note's room, and the room itself, are as they were. -/
structure SameRoom (s s' : SocketServer D) (vaultId fileId : String) : Prop where
  roomStore : (s'.note vaultId fileId).roomStore = (s.note vaultId fileId).roomStore
  persisted : (s'.note vaultId fileId).runtime.persisted
    = (s.note vaultId fileId).runtime.persisted
  doc : (s'.note vaultId fileId).runtime.doc = (s.note vaultId fileId).runtime.doc

/-- Nothing that is stored has changed. -/
structure Unchanged (s s' : SocketServer D) : Prop where
  data : s'.sync.data = s.sync.data
  rooms : ∀ vaultId fileId, SameRoom s s' vaultId fileId

/-- No file, op, conflict, blob or room has changed. -/
structure VaultKept (s s' : SocketServer D) : Prop where
  files : s'.sync.data.files = s.sync.data.files
  ops : s'.sync.data.ops = s.sync.data.ops
  conflicts : s'.sync.data.conflicts = s.sync.data.conflicts
  blobs : s'.sync.data.blobs = s.sync.data.blobs
  rooms : ∀ vaultId fileId, SameRoom s s' vaultId fileId

/-- **What came of a message is authorized**, by the tables when it was handled. -/
structure Authorized (connection : Connection) (s : SocketServer D) (handled : Handled D) :
    Prop where
  barred : Barred connection s.sync.data →
    (∀ answer ∈ handled.answers connection.deviceId, answer.carriesVaultData = false) ∧
      Unchanged s handled.server
  viewer : Viewer connection s.sync.data → VaultKept s handled.server

/-! ### The condition -/

/-- The device takes part in the note's room, and the room is active. -/
def Present (s : SocketServer D) (connection : Connection) (fileId : String) : Prop :=
  (s.note connection.vaultId fileId).runtime.participants.get? connection.deviceId ≠ none ∧
    (s.note connection.vaultId fileId).runtime.persisted.active = true

/-- The conflict is one of the vault, and the user may write. -/
def Accessible (s : Store) (connection : Connection) (conflictId : String) : Prop :=
  ∃ conflict ∈ s.getConflict conflictId,
    requireConflictAccess s conflict connection.vaultId connection.userId true = .ok ()

/-- The announcement of an upload is taken down. -/
def Announces (s : Store) (hash : String) (size : ℕ) : Prop :=
  isValidContentHash hash = true ∧ isSafeInteger size = true ∧ s.blobVerified hash = false ∧
    ∀ blob ∈ s.getBlob hash, blob.size = size

/-- The object that was uploaded is the one that was announced. -/
def Completes (P : Platform) (s : SocketServer D) (hash : String) : Prop :=
  isValidContentHash hash = true ∧ ∃ blob ∈ s.sync.data.getBlob hash,
    ∃ object ∈ s.objects.get? hash, object.2.length = blob.size ∧ contentHash P object.2 = hash

/-- **The message is checked where that matters**: where it would read, the connection is not
barred; where it would write, the user is no viewer either.  The other kinds of messages are
checked by their handlers. -/
def Checked (cfg : SocketConfig D) (s : SocketServer D) (connection : Connection) :
    ValidatedClientMessage D → Prop
  | .fileOp op =>
    op.kind = .delete → s.sync.data.getOpById op.opId ≠ none →
      (s.note connection.vaultId op.fileId).runtime.persisted.active = true →
        MayWrite connection s.sync.data
  | .getOps sinceSeq =>
    (∃ op ∈ s.sync.data.ops, op.vaultId = connection.vaultId ∧ op.seq > sinceSeq) →
      ¬ Barred connection s.sync.data
  | .getManifest cursor => (∃ place, cursor = .ok place) → ¬ Barred connection s.sync.data
  | .listTrash =>
    (∃ file ∈ s.sync.data.files.rows, file.vaultId = connection.vaultId ∧ file.deleted = true) →
      ¬ Barred connection s.sync.data
  | .getContent hash =>
    s.sync.data.holdsContent connection.vaultId hash = true →
      (s.sync.data.getContent hash ≠ none ∨ s.sync.data.blobVerified hash = true) →
        ¬ Barred connection s.sync.data
  | .blobUploadInit hash size =>
    Announces s.sync.data hash size → MayWrite connection s.sync.data
  | .blobUploadComplete hash =>
    Completes cfg.room.platform s hash → MayWrite connection s.sync.data
  | .claimConflict conflictId | .releaseConflict conflictId
  | .resolveConflict conflictId _ _ _ =>
    Accessible s.sync.data connection conflictId → ¬ Barred connection s.sync.data
  | .demote fileId =>
    (s.note connection.vaultId fileId).runtime.persisted.active = true →
      MayWrite connection s.sync.data
  | .yjsHeartbeat fileId roomEpoch =>
    Present s connection fileId → ¬ Barred connection s.sync.data ∧
      ((s.note connection.vaultId fileId).runtime.persisted.epoch = roomEpoch →
        ¬ Viewer connection s.sync.data)
  | .yjsSync fileId _ _ => Present s connection fileId → ¬ Barred connection s.sync.data
  | .yjsAwareness fileId roomEpoch _ | .leaveRoom fileId roomEpoch =>
    Present s connection fileId →
      (s.note connection.vaultId fileId).runtime.persisted.epoch ≠ roomEpoch →
        ¬ Barred connection s.sync.data
  | .hello | .promote _ | .yjsUpdate .. | .historyList .. | .historyGet .. | .historyRestore ..
  | .restore _ => True

/-! ### Nothing changes -/

variable {cfg : SocketConfig D} {busy : RoomSink → Bool} {now : Time} {uuid : Uuid}
  {clientID socket : ℕ} {connection : Connection} {s s' : SocketServer D} {handled : Handled D}

theorem Unchanged.trans {t : SocketServer D} (h : Unchanged s s') (h' : Unchanged s' t) :
    Unchanged s t := by
  refine ⟨h'.data.trans h.data, fun vaultId fileId => ?_⟩
  have hfirst := h.rooms vaultId fileId
  have hthen := h'.rooms vaultId fileId
  exact ⟨hthen.roomStore.trans hfirst.roomStore, hthen.persisted.trans hfirst.persisted,
    hthen.doc.trans hfirst.doc⟩

theorem Unchanged.vaultKept (h : Unchanged s s') : VaultKept s s' :=
  ⟨by rw [h.data], by rw [h.data], by rw [h.data], by rw [h.data], h.rooms⟩

/-- A server with the same data and rooms. -/
theorem unchanged_of_sync (h : s'.sync = s.sync) : Unchanged s s' := by
  refine ⟨by rw [h], fun vaultId fileId => ?_⟩
  have hnote : s'.note vaultId fileId = s.note vaultId fileId := by
    unfold SocketServer.note
    rw [h]
  exact ⟨by rw [hnote], by rw [hnote], by rw [hnote]⟩

theorem unchanged_of_data (hdata : s'.sync.data = s.sync.data)
    (hrooms : s'.sync.rooms = s.sync.rooms) : Unchanged s s' := by
  refine unchanged_of_sync ?_
  cases hsync : s'.sync
  cases hsync' : s.sync
  simp_all

/-- A room, its stores and the data store are as they were. -/
structure Room.Kept (r r' : Room D) : Prop where
  data : r'.data = r.data
  roomStore : r'.roomStore = r.roomStore
  persisted : r'.runtime.persisted = r.runtime.persisted
  doc : r'.runtime.doc = r.runtime.doc

omit [SemilatticeSup D] [OrderBot D] in
theorem Room.Kept.refl (r : Room D) : r.Kept r := ⟨rfl, rfl, rfl, rfl⟩

/-- A call that keeps its room changes nothing. -/
theorem unchanged_withNote {vaultId fileId : String} {r : Room D}
    (h : (s.note vaultId fileId).Kept r) : Unchanged s (s.withNote vaultId fileId r) := by
  refine ⟨h.data, fun vaultId' fileId' => ?_⟩
  by_cases hnote : (vaultId', fileId') = (vaultId, fileId)
  · obtain ⟨rfl, rfl⟩ := Prod.mk.inj hnote
    have hroom : (s.withNote vaultId' fileId' r).note vaultId' fileId' = r := by
      simp [SocketServer.note, SocketServer.withNote, SyncServer.room, RoomServer.materialize]
    rw [← hroom] at h
    exact ⟨h.roomStore, h.persisted, h.doc⟩
  · have hrooms : (s.withNote vaultId fileId r).sync.rooms (vaultId', fileId')
        = s.sync.rooms (vaultId', fileId') := by
      simp [SocketServer.withNote, hnote]
    refine ⟨?_, ?_, ?_⟩ <;>
      simp only [SocketServer.note, SyncServer.room, RoomServer.materialize, hrooms]

/-- Whoever may read and write is authorized to whatever comes of a message. -/
theorem authorized_of_mayWrite (h : MayWrite connection s.sync.data) :
    Authorized connection s handled :=
  ⟨fun hbarred => absurd hbarred h.1, fun hviewer => absurd hviewer h.2⟩

/-- Whoever may read is, if the vault is kept. -/
theorem authorized_of_not_barred (h : ¬ Barred connection s.sync.data)
    (hkept : Viewer connection s.sync.data → VaultKept s handled.server) :
    Authorized connection s handled :=
  ⟨fun hbarred => absurd hbarred h, hkept⟩

/-- Anyone is, where nothing changes and nothing is told. -/
theorem authorized_of_unchanged (hserver : Unchanged s handled.server)
    (hanswers : ∀ answer ∈ handled.answers connection.deviceId, answer.carriesVaultData = false) :
    Authorized connection s handled :=
  ⟨fun _ => ⟨hanswers, hserver⟩, fun _ => hserver.vaultKept⟩

/-! ### Ops -/

omit [SemilatticeSup D] [OrderBot D] in
/-- Whoever may not write has a revoked device or no role that writes. -/
theorem revoked_or_reader (h : ¬ MayWrite connection s.sync.data) :
    (s.sync.data.getDevice connection.deviceId).any StoredDevice.revoked = true ∨
      (s.sync.data.getRole connection.vaultId connection.userId).elim false Role.canWrite
        = false := by
  unfold MayWrite Barred Viewer at h
  cases hrole : s.sync.data.getRole connection.vaultId connection.userId with
  | none => exact Or.inr rfl
  | some role =>
    rw [hrole] at h
    cases role with
    | owner | editor => exact Or.inl (by simpa using h)
    | viewer => exact Or.inr rfl

omit [SemilatticeSup D] [OrderBot D] in
/-- An op of such a connection is refused where it is not answered from the log. -/
theorem checkDevice_of_not_mayWrite {claims : AccessClaims} {op : FileOp}
    (hdevice : op.deviceId = claims.deviceId) (hvault : op.vaultId = claims.vaultId)
    (h : ¬ MayWrite claims.toConnection s.sync.data) :
    ∃ result, checkDevice op (some claims.userId) s.sync.data = some (.reject result) := by
  have hordinary : syntheticCollab op = false := by
    simpa [syntheticCollab, hdevice] using claims.device op.fileId
  have huser : truthy (some claims.userId) = true := by simpa using claims.user
  unfold checkDevice
  rw [hordinary, hdevice, hvault]
  cases hrow : s.sync.data.getDevice claims.deviceId with
  | none => exact ⟨_, rfl⟩
  | some device =>
    simp only [Bool.false_eq_true, if_false]
    by_cases hother : device.vaultId ≠ claims.vaultId
    · exact ⟨_, if_pos hother⟩
    rw [if_neg hother]
    cases hrevoked : device.revoked with
    | true => exact ⟨_, rfl⟩
    | false =>
      have hreader : (s.sync.data.getRole claims.vaultId claims.userId).elim false Role.canWrite
          = false := by
        rcases revoked_or_reader h with hany | hreader
        · simp [hrow, hrevoked] at hany
        · exact hreader
      simp only [Bool.false_eq_true, if_false, huser, Option.getD_some, hreader]
      exact ⟨_, rfl⟩

omit [SemilatticeSup D] [OrderBot D] in
/-- An op of such a connection changes nothing, and only one of the log is acknowledged. -/
theorem fileOp_of_not_mayWrite {claims : AccessClaims} (P : Platform) (now : Time) (uuid : Uuid)
    (op : FileOp) (h : ¬ MayWrite claims.toConnection s.sync.data) :
    (s.fileOp P claims.toConnection now uuid op).2.sync = s.sync ∧
      ∀ result, (s.fileOp P claims.toConnection now uuid op).1 = .ok (.ack result) →
        s.sync.data.getOpById op.opId ≠ none := by
  unfold SocketServer.fileOp
  split
  · exact ⟨rfl, fun result hack => by simp [deny] at hack⟩
  next hown =>
  rw [not_or, not_not, not_not] at hown
  split
  · exact ⟨rfl, fun result hack => by simp at hack⟩
  -- the log answers, or the device is refused
  have hprocess : (process P now uuid op (some claims.userId) s.sync.data).2 = s.sync.data ∧
      ∀ result, (process P now uuid op (some claims.userId) s.sync.data).1 = .ok (.ack result) →
        s.sync.data.getOpById op.opId ≠ none := by
    unfold process
    cases s.sync.data.getOpById op.opId with
    | some existing => exact ⟨rfl, fun _ _ => by simp⟩
    | none =>
      obtain ⟨refused, hrefused⟩ := checkDevice_of_not_mayWrite hown.1 hown.2 h
      simp [hrefused]
  cases hresult : process P now uuid op (some claims.userId) s.sync.data with
  | mk result data =>
    obtain ⟨rfl, hknown⟩ : data = s.sync.data ∧
        ∀ answer, result = .ok (.ack answer) → s.sync.data.getOpById op.opId ≠ none := by
      simpa [hresult] using hprocess
    cases result with
    | error e => exact ⟨rfl, fun _ hack => by simp at hack⟩
    | ok answer =>
      cases answer with
      | reject result => exact ⟨rfl, fun _ hack => by simp at hack⟩
      | ack result =>
        refine ⟨?_, fun _ _ => hknown result rfl⟩
        dsimp only
        split <;> rfl

omit [SemilatticeSup D] [OrderBot D] in
theorem carriesVaultData_fileOpAnswer (result : Except SocketFailure OpApplyResult) :
    (SocketMessage.layer1 (fileOpAnswer result) : SocketMessage D).carriesVaultData = false := by
  rcases result with (_ | _ | _) | (_ | _) <;> rfl

/-- **A `file_op` is authorized**, unless it is the replay of a delete on an active room. -/
theorem authorized_fileOp {claims : AccessClaims} {op : FileOp}
    (h : Checked cfg s claims.toConnection (.fileOp op)) :
    Authorized claims.toConnection s
      (handleFileOp cfg busy now uuid claims.toConnection s op) := by
  by_cases hwrite : MayWrite claims.toConnection s.sync.data
  · exact authorized_of_mayWrite hwrite
  obtain ⟨hsync, hknown⟩ := fileOp_of_not_mayWrite cfg.room.platform now uuid op hwrite
  unfold handleFileOp
  cases hop : s.fileOp cfg.room.platform claims.toConnection now uuid op with
  | mk result s' =>
    rw [hop] at hsync hknown
    have hsame : Unchanged s s' := unchanged_of_sync hsync
    have hplain : Authorized claims.toConnection s
        { replies := [.layer1 (fileOpAnswer result)], server := s' } :=
      authorized_of_unchanged hsame
        (by simpa [Handled.answers] using carriesVaultData_fileOpAnswer result)
    cases result with
    | error e => exact hplain
    | ok answer =>
      cases answer with
      | reject result => exact hplain
      | ack result =>
        dsimp only
        split
        · next hdelete =>
          -- the room of the note is closed only if it is active
          have hinactive : (s.note claims.vaultId op.fileId).runtime.persisted.active ≠ true :=
            fun hactive => hwrite (h hdelete (hknown result rfl) hactive)
          have hnote : s'.note claims.vaultId op.fileId = s.note claims.vaultId op.fileId := by
            unfold SocketServer.note
            rw [hsync]
          have hclose : (s'.note claims.vaultId op.fileId).closeDeleted
              (cfg.room.ofNote claims.vaultId op.fileId) busy
                = { result := .ok (), room := s.note claims.vaultId op.fileId } := by
            rw [hnote]
            exact if_neg hinactive
          rw [hclose]
          refine authorized_of_unchanged ?_ (by simp [Handled.answers, fileOpAnswer,
            SocketMessage.carriesVaultData])
          have hkept : Unchanged s'
              (s'.withNote claims.vaultId op.fileId (s.note claims.vaultId op.fileId)) := by
            rw [← hnote]
            exact unchanged_withNote (Room.Kept.refl _)
          exact hsame.trans hkept
        · exact authorized_of_unchanged hsame (by simp [Handled.answers, fileOpAnswer,
            SocketMessage.carriesVaultData])

/-! ### Blobs and conflicts -/

/-- A handler that only answers is authorized where its answer tells nothing. -/
theorem authorized_answered {α ε : Type} {toWire : ε → SocketMessage D}
    {reply : α → SocketMessage D} {result : Except ε α} (hserver : Unchanged s s')
    (herror : ∀ e, (toWire e).carriesVaultData = false)
    (hreply : ∀ a, result = .ok a → (reply a).carriesVaultData = false) :
    Authorized connection s (s'.answered toWire reply result) := by
  refine authorized_of_unchanged hserver ?_
  intro answer hanswer
  cases result with
  | error e =>
    obtain rfl : answer = toWire e := by
      simpa [Handled.answers, SocketServer.answered] using hanswer
    exact herror e
  | ok a =>
    obtain rfl : answer = reply a := by simpa [Handled.answers, SocketServer.answered] using hanswer
    exact hreply a rfl

omit [SemilatticeSup D] [OrderBot D] in
theorem carriesVaultData_toWire (e : SocketFailure) :
    (SocketMessage.layer1 e.toWire : SocketMessage D).carriesVaultData = false := by
  cases e <;> rfl

omit [SemilatticeSup D] [OrderBot D] in
@[simp] theorem withData_self (s : SocketServer D) : s.withData s.sync.data = s := rfl

theorem of_validateHashAndSize {hash : String} {size : ℕ} {u : Unit}
    (h : validateHashAndSize hash size = .ok u) :
    isValidContentHash hash = true ∧ isSafeInteger size = true := by
  unfold validateHashAndSize at h
  cases hhash : isValidContentHash hash <;> cases hsafe : isSafeInteger size <;>
    simp [hhash, hsafe, deny] at h ⊢

omit [SemilatticeSup D] [OrderBot D] in
/-- An announcement that is not taken down changes nothing. -/
theorem initUpload_of_not_announces {hash : String} {size : ℕ} {data : Store}
    (h : ¬ Announces data hash size) : (initUpload hash size data).2 = data := by
  unfold initUpload
  split
  · rfl
  next hvalid =>
  split
  · rfl
  next hverified =>
  dsimp only
  split
  · rfl
  next hsize =>
  obtain ⟨hhash, hsafe⟩ := of_validateHashAndSize hvalid
  refine absurd ⟨hhash, hsafe, by simpa using hverified, fun blob hblob => ?_⟩ h
  rw [Option.mem_def] at hblob
  simpa [hblob] using hsize

theorem unchanged_blobUploadInit (connection : Connection) {hash : String} {size : ℕ}
    (h : ¬ Announces s.sync.data hash size) :
    Unchanged s (s.blobUploadInit connection hash size).2 := by
  refine unchanged_of_data ?_ ?_
  · rw [data_blobUploadInit, initUpload_of_not_announces h]
  · unfold SocketServer.blobUploadInit
    split <;> rfl

omit [SemilatticeSup D] [OrderBot D] in
theorem completeUpload_of_not_completes {P : Platform} {hash : String}
    (h : ¬ Completes P s hash) :
    (completeUpload P hash s.objects s.sync.data).2 = s.sync.data := by
  unfold completeUpload
  split
  · rfl
  next hvalid =>
  cases hblob : s.sync.data.getBlob hash with
  | none => rfl
  | some blob =>
    cases hobject : s.objects.get? hash with
    | none => rfl
    | some object =>
      dsimp only
      split
      · rfl
      next hsize =>
      split
      · rfl
      next hhash =>
      exfalso
      exact h ⟨by simpa using hvalid, blob, hblob, object, hobject, not_not.mp hsize,
        not_not.mp hhash⟩

omit [SemilatticeSup D] [OrderBot D] in
/-- A conflict that is not accessible is found with an error, or not found. -/
theorem requireConflictAccess_of_not_accessible {data : Store} {conflictId : String}
    (h : ¬ Accessible data connection conflictId) {conflict : ConflictRecord}
    (hconflict : data.getConflict conflictId = some conflict) :
    ∃ e, requireConflictAccess data conflict connection.vaultId connection.userId true
      = .error e := by
  cases haccess : requireConflictAccess data conflict connection.vaultId connection.userId true with
  | error e => exact ⟨e, rfl⟩
  | ok u => exact absurd ⟨conflict, hconflict, haccess⟩ h

omit [SemilatticeSup D] [OrderBot D] in
theorem claim_of_not_accessible {data : Store} {conflictId : String}
    (h : ¬ Accessible data connection conflictId) :
    (claim connection.vaultId connection.userId connection.deviceId conflictId data).2 = data := by
  unfold claim
  cases hconflict : data.getConflict conflictId with
  | none => rfl
  | some conflict =>
    obtain ⟨e, he⟩ := requireConflictAccess_of_not_accessible h hconflict
    simp only [he]

omit [SemilatticeSup D] [OrderBot D] in
theorem release_of_not_accessible {data : Store} {conflictId : String}
    (h : ¬ Accessible data connection conflictId) :
    (release connection.vaultId connection.userId connection.deviceId conflictId data).2
      = data := by
  unfold release
  cases hconflict : data.getConflict conflictId with
  | none => rfl
  | some conflict =>
    obtain ⟨e, he⟩ := requireConflictAccess_of_not_accessible h hconflict
    simp only [he]

omit [SemilatticeSup D] [OrderBot D] in
theorem resolve_of_not_accessible {P : Platform} {data : Store} {input : ResolveInput}
    (hvault : input.vaultId = connection.vaultId) (huser : input.userId = connection.userId)
    (h : ¬ Accessible data connection input.conflictId) : (resolve P now input data).2 = data := by
  unfold resolve
  cases hconflict : data.getConflict input.conflictId with
  | none => rfl
  | some conflict =>
    obtain ⟨e, he⟩ := requireConflictAccess_of_not_accessible h hconflict
    simp only [hvault, huser, he]

omit [SemilatticeSup D] [OrderBot D] in
/-- A viewer has access to no conflict. -/
theorem not_accessible_of_viewer {data : Store} {conflictId : String}
    (h : Viewer connection data) : ¬ Accessible data connection conflictId := by
  rintro ⟨conflict, -, haccess⟩
  unfold Viewer at h
  simp only [requireConflictAccess, h] at haccess
  split at haccess
  · simp [refuse] at haccess
  · simp [refuse, Role.canWrite] at haccess

/-- A conflict handler is authorized if it changes nothing without access. -/
theorem authorized_conflict {conflictId : String} {handled : Handled D}
    (h : Accessible s.sync.data connection conflictId → ¬ Barred connection s.sync.data)
    (hhandled : ¬ Accessible s.sync.data connection conflictId →
      Authorized connection s handled) : Authorized connection s handled := by
  by_cases haccess : Accessible s.sync.data connection conflictId
  · exact authorized_of_mayWrite
      ⟨h haccess, fun hviewer => not_accessible_of_viewer hviewer haccess⟩
  · exact hhandled haccess

/-! ### Rooms -/

omit [SemilatticeSup D] [OrderBot D] in
theorem requireRole_of_barred {data : Store} (editor : Bool) (h : Barred connection data) :
    ∃ e, requireRole connection.vaultId connection.deviceId connection.userId editor data
      = .error e := by
  unfold requireRole
  cases hdevice : data.getDevice connection.deviceId with
  | none => exact ⟨_, rfl⟩
  | some device =>
    dsimp only
    split
    · exact ⟨_, rfl⟩
    next hvalid =>
    rcases h with hrevoked | hrole
    · simp [hdevice] at hrevoked
      exact absurd (Or.inr hrevoked) hvalid
    · rw [hrole]
      exact ⟨_, rfl⟩

omit [SemilatticeSup D] [OrderBot D] in
theorem requireRole_of_not_mayWrite {data : Store} (h : ¬ MayWrite connection data) :
    ∃ e, requireRole connection.vaultId connection.deviceId connection.userId true data
      = .error e := by
  by_cases hbarred : Barred connection data
  · exact requireRole_of_barred true hbarred
  have hviewer : Viewer connection data := by
    by_contra hviewer
    exact h ⟨hbarred, hviewer⟩
  unfold requireRole
  cases data.getDevice connection.deviceId with
  | none => exact ⟨_, rfl⟩
  | some device =>
    dsimp only
    split
    · exact ⟨_, rfl⟩
    · rw [hviewer]
      exact ⟨_, rfl⟩

/-- A call that keeps its room and tells nothing is authorized. -/
theorem authorized_called {α : Type} {vaultId fileId : String} {outcome : Outcome D α}
    {reply : α → List (SocketMessage D)} (hroom : (s.note vaultId fileId).Kept outcome.room)
    (hreply : ∀ a, outcome.result = .ok a → reply a = [])
    (hsent : ∀ message ∈ outcome.sent,
      (SocketMessage.room message.2).carriesVaultData = false) :
    Authorized connection s (s.called vaultId fileId outcome reply) := by
  refine authorized_of_unchanged (unchanged_withNote hroom) ?_
  intro answer hanswer
  rcases List.mem_append.mp hanswer with hreplied | hroomed
  · simp only [SocketServer.called] at hreplied
    cases hresult : outcome.result with
    | ok a => simp [hresult, hreply a hresult] at hreplied
    | error e =>
      obtain rfl : answer = errorMessage e.toWire := by simpa [hresult] using hreplied
      rfl
  · obtain ⟨message, hmessage, rfl⟩ := List.mem_map.mp hroomed
    exact hsent message (List.mem_filter.mp hmessage).1

/-- A call that fails where it starts is authorized. -/
theorem authorized_called_error {α : Type} {vaultId fileId : String} {outcome : Outcome D α}
    {reply : α → List (SocketMessage D)} {e : Failure}
    (h : outcome = { result := .error e, room := s.note vaultId fileId }) :
    Authorized connection s (s.called vaultId fileId outcome reply) := by
  subst h
  exact authorized_called (Room.Kept.refl _) (fun a ha => by simp at ha) (by simp)

/-- Whoever may read is authorized to a call that keeps its room. -/
theorem authorized_called_of_kept {α : Type} {vaultId fileId : String} {outcome : Outcome D α}
    {reply : α → List (SocketMessage D)} (h : ¬ Barred connection s.sync.data)
    (hroom : (s.note vaultId fileId).Kept outcome.room) :
    Authorized connection s (s.called vaultId fileId outcome reply) :=
  authorized_of_not_barred h fun _ => (unchanged_withNote hroom).vaultKept

omit [SemilatticeSup D] [OrderBot D] in
/-- What a stale message is answered with tells of the room only if the device takes part in
it, it is active and it is another incarnation. -/
theorem present_of_rejectIfStale {r : Room D} {epoch : ℕ} {deviceId : String}
    {sent : List (RoomSink × RoomMessage D)} (h : r.rejectIfStale epoch deviceId = some sent)
    {message : RoomSink × RoomMessage D} (hmessage : message ∈ sent)
    (hdata : (SocketMessage.room message.2).carriesVaultData = true) :
    r.runtime.participants.get? deviceId ≠ none ∧ r.runtime.persisted.active = true ∧
      r.runtime.persisted.epoch ≠ epoch := by
  unfold Room.rejectIfStale at h
  dsimp only at h
  split at h
  · next hstale =>
    refine ⟨fun hnone => ?_, hstale⟩
    obtain rfl : sent = [] := by simpa [hnone] using h.symm
    simp at hmessage
  split at h
  · exfalso
    cases hparticipant : r.runtime.participants.get? deviceId with
    | none =>
      obtain rfl : sent = [] := by simpa [hparticipant] using h.symm
      simp at hmessage
    | some participant =>
      obtain rfl : sent = [(participant.sink, .roomClosed epoch .epochStale none)] := by
        simpa [hparticipant] using h.symm
      obtain rfl := List.mem_singleton.mp hmessage
      simp [SocketMessage.carriesVaultData] at hdata
  · simp at h

omit [SemilatticeSup D] [OrderBot D] in
/-- What happens to a message of a participant that is not stale, happens in an active room. -/
theorem present_of_participant {r : Room D} {epoch : ℕ} {deviceId : String}
    {participant : Participant} (hstale : r.rejectIfStale epoch deviceId = none)
    (hparticipant : r.requireParticipant deviceId = .ok participant) :
    r.runtime.participants.get? deviceId ≠ none ∧ r.runtime.persisted.active = true ∧
      r.runtime.persisted.epoch = epoch := by
  obtain ⟨hactive, hepoch, -⟩ := Room.rejectIfStale_eq_none_iff.mp hstale
  exact ⟨by simp [Room.requireParticipant_eq_ok_iff.mp hparticipant], hactive, hepoch⟩

/-- A call of a participant is authorized if it keeps its room, unless the connection may
write, and tells of the room only what the connection may read. -/
theorem authorized_of_participant {α : Type} {fileId : String} {outcome : Outcome D α}
    (hroom : MayWrite connection s.sync.data ∨
      (s.note connection.vaultId fileId).Kept outcome.room)
    (hsent : ∀ message ∈ outcome.sent,
      (SocketMessage.room message.2).carriesVaultData = true → ¬ Barred connection s.sync.data) :
    Authorized connection s (s.called connection.vaultId fileId outcome fun _ => []) := by
  rcases hroom with hwrite | hkept
  · exact authorized_of_mayWrite hwrite
  by_cases hbarred : Barred connection s.sync.data
  · refine authorized_called hkept (fun _ _ => rfl) fun message hmessage => ?_
    by_contra hdata
    exact hsent message hmessage (by simpa using hdata) hbarred
  · exact authorized_called_of_kept hbarred hkept

theorem authorized_heartbeat {fileId : String} {roomEpoch : ℕ}
    (h : Checked cfg s connection (.yjsHeartbeat fileId roomEpoch)) :
    Authorized connection s (handleMessage cfg busy now uuid clientID socket connection s
      (.yjsHeartbeat fileId roomEpoch)) := by
  refine authorized_of_participant ?_ ?_
  · unfold Room.heartbeat
    split
    · exact Or.inr (Room.Kept.refl _)
    next hstale =>
    split
    · exact Or.inr (Room.Kept.refl _)
    next participant hparticipant =>
    obtain ⟨hmember, hactive, hepoch⟩ := present_of_participant hstale hparticipant
    obtain ⟨hbarred, hviewer⟩ := h ⟨hmember, hactive⟩
    exact Or.inl ⟨hbarred, hviewer hepoch⟩
  · unfold Room.heartbeat
    split
    · next sent hstale =>
      intro message hmessage hdata
      obtain ⟨hmember, hactive, -⟩ := present_of_rejectIfStale hstale hmessage hdata
      exact (h ⟨hmember, hactive⟩).1
    · split <;> simp

theorem authorized_sync {fileId : String} {roomEpoch : ℕ} {stateVector : D}
    (h : Checked cfg s connection (.yjsSync fileId roomEpoch stateVector)) :
    Authorized connection s (handleMessage cfg busy now uuid clientID socket connection s
      (.yjsSync fileId roomEpoch stateVector)) := by
  refine authorized_of_participant (Or.inr ?_) ?_
  · rw [Room.handleSync_room]
    exact Room.Kept.refl _
  · unfold Room.handleSync
    split
    · simp
    split
    · next sent hstale =>
      intro message hmessage hdata
      obtain ⟨hmember, hactive, -⟩ := present_of_rejectIfStale hstale hmessage hdata
      exact h ⟨hmember, hactive⟩
    next hstale =>
    split
    · simp
    · next participant hparticipant =>
      obtain ⟨hmember, hactive, -⟩ := present_of_participant hstale hparticipant
      exact fun _ _ _ => h ⟨hmember, hactive⟩

omit [SemilatticeSup D] [OrderBot D] in
theorem kept_of_removeParticipant (r : Room D) (participant : Participant) :
    r.Kept (r.removeParticipant participant) := by
  unfold Room.removeParticipant Room.scheduleClosingIfEmpty
  split <;> exact ⟨rfl, rfl, rfl, rfl⟩

omit [SemilatticeSup D] [OrderBot D] in
theorem kept_leave (r : Room D) (deviceId : String) (roomEpoch : ℕ) :
    r.Kept (r.leave deviceId roomEpoch).room := by
  rcases r.leave_cases with hsame | ⟨participant, -, hleft⟩
  · rw [hsame]
    exact Room.Kept.refl r
  · rw [hleft]
    exact kept_of_removeParticipant r participant

theorem authorized_leave {fileId : String} {roomEpoch : ℕ}
    (h : Checked cfg s connection (.leaveRoom fileId roomEpoch)) :
    Authorized connection s (handleMessage cfg busy now uuid clientID socket connection s
      (.leaveRoom fileId roomEpoch)) := by
  refine authorized_of_participant (Or.inr ?_) ?_
  · exact kept_leave _ connection.deviceId roomEpoch
  · unfold Room.leave
    split
    · next sent hstale =>
      intro message hmessage hdata
      obtain ⟨hmember, hactive, hepoch⟩ := present_of_rejectIfStale hstale hmessage hdata
      exact h ⟨hmember, hactive⟩ hepoch
    · split <;> simp

omit [SemilatticeSup D] [OrderBot D] in
/-- The relay of awareness keeps the room, and answers only what is stale. -/
theorem handleAwareness_spec (busy : RoomSink → Bool) (r : Room D) (deviceId : String)
    (roomEpoch : ℕ) (state : Bytes) :
    (r.handleAwareness busy deviceId roomEpoch state).room = r ∧
      ∀ message ∈ (r.handleAwareness busy deviceId roomEpoch state).sent,
        (SocketMessage.room message.2).carriesVaultData = true →
          r.runtime.participants.get? deviceId ≠ none ∧ r.runtime.persisted.active = true ∧
            r.runtime.persisted.epoch ≠ roomEpoch := by
  unfold Room.handleAwareness
  split
  · exact ⟨rfl, by simp⟩
  split
  · next sent hstale =>
    exact ⟨rfl, fun message hmessage hdata => present_of_rejectIfStale hstale hmessage hdata⟩
  split
  · exact ⟨rfl, by simp⟩
  split
  · exact ⟨rfl, by simp⟩
  · exact ⟨rfl, by simp⟩

theorem authorized_awareness {fileId : String} {roomEpoch : ℕ} {state : Bytes}
    (h : Checked cfg s connection (.yjsAwareness fileId roomEpoch state)) :
    Authorized connection s (handleMessage cfg busy now uuid clientID socket connection s
      (.yjsAwareness fileId roomEpoch state)) := by
  obtain ⟨hroom, hsent⟩ := handleAwareness_spec busy (s.note connection.vaultId fileId)
    connection.deviceId roomEpoch state
  have hcalled : Authorized connection s
      (s.called connection.vaultId fileId ((s.note connection.vaultId fileId).handleAwareness busy
        connection.deviceId roomEpoch state) fun _ => []) := by
    refine authorized_of_participant (Or.inr ?_) fun message hmessage hdata => ?_
    · rw [hroom]
      exact Room.Kept.refl _
    · obtain ⟨hmember, hactive, hepoch⟩ := hsent message hmessage hdata
      exact h ⟨hmember, hactive⟩ hepoch
  exact ⟨hcalled.barred, hcalled.viewer⟩

/-! ### Listings -/

/-- A handler that only reads is authorized if the connection may read, or is told nothing. -/
theorem authorized_read {handled : Handled D} (hserver : handled.server = s)
    (hanswers : Barred connection s.sync.data →
      ∀ answer ∈ handled.answers connection.deviceId, answer.carriesVaultData = false) :
    Authorized connection s handled := by
  have hsame : Unchanged s handled.server := unchanged_of_sync (by rw [hserver])
  exact ⟨fun hbarred => ⟨hanswers hbarred, hsame⟩, fun _ => hsame.vaultKept⟩

omit [SemilatticeSup D] [OrderBot D] in
theorem listOps_eq_nil {data : Store} {vaultId : String} {sinceSeq : ℕ} (limit : ℕ)
    (h : ¬ ∃ op ∈ data.ops, op.vaultId = vaultId ∧ op.seq > sinceSeq) :
    data.listOps vaultId sinceSeq limit = [] := by
  have hnone : (data.opsByVault vaultId).filter (fun op => op.seq > sinceSeq) = [] := by
    rw [List.filter_eq_nil_iff]
    intro op hop
    rw [Store.opsByVault, List.mem_insertionSort, List.mem_filter] at hop
    intro hseq
    exact h ⟨op, hop.1, by simpa using hop.2, by simpa using hseq⟩
  simp [Store.listOps, hnone]

omit [SemilatticeSup D] [OrderBot D] in
theorem trashItems_eq_nil {data : Store} {vaultId : String}
    (h : ¬ ∃ file ∈ data.files.rows, file.vaultId = vaultId ∧ file.deleted = true) :
    trashItems data vaultId = [] := by
  have hnone : data.trashed vaultId = [] := by
    rw [Store.trashed, List.filter_eq_nil_iff]
    intro file hfile hdeleted
    exact h ⟨file, hfile, by simpa using hdeleted⟩
  simp [trashItems, Store.listTrash, hnone]

omit [SemilatticeSup D] [OrderBot D] in
/-- A hash that the vault does not hold, or of which nothing is kept, is read as nothing. -/
theorem readContent_eq_none {P : Platform} {hash : String} {data : Option Bytes}
    (h : s.sync.data.holdsContent connection.vaultId hash = true →
      s.sync.data.getContent hash = none ∧ s.sync.data.blobVerified hash = false)
    (hread : s.readContent P connection hash = .ok data) : data = none := by
  unfold SocketServer.readContent at hread
  split at hread
  · simp [deny] at hread
  next hheld =>
  obtain ⟨hcontent, hblob⟩ := h (by simpa using hheld)
  split at hread
  · simp [deny] at hread
  next hvalid =>
  have hvalid : isValidContentHash hash = true := by simpa using hvalid
  simpa [hcontent, getBytes, hvalid, hblob] using hread.symm

theorem authorized_getContent {hash : String} (h : Checked cfg s connection (.getContent hash)) :
    Authorized connection s (handleMessage cfg busy now uuid clientID socket connection s
      (.getContent hash)) := by
  refine authorized_read rfl fun hbarred answer hanswer => ?_
  simp only [handleMessage, SocketServer.answered, Handled.answers, List.filter_nil, List.map_nil,
    List.append_nil] at hanswer
  cases hread : s.readContent cfg.room.platform connection hash with
  | error e =>
    obtain rfl : answer = .layer1 e.toWire := by simpa [hread] using hanswer
    exact carriesVaultData_toWire e
  | ok data =>
    obtain rfl : answer = .content hash data := by simpa [hread] using hanswer
    have hnone : data = none := by
      refine readContent_eq_none (fun hheld => ?_) hread
      -- what is kept of a hash the vault holds is not told a barred connection
      by_contra hkept
      refine h hheld ?_ hbarred
      cases hcontent : s.sync.data.getContent hash with
      | some bytes => exact Or.inl (by simp)
      | none => exact Or.inr (by simpa [hcontent] using hkept)
    rw [hnone]
    rfl

/-- A handler that asks for a role tells nothing to a barred connection. -/
theorem authorized_role {α : Type} {result : Except Failure α} {reply : α → SocketMessage D}
    (h : Barred connection s.sync.data → ∃ e, result = .error e) :
    Authorized connection s (s.answered (fun e => errorMessage e.toWire) reply result) := by
  refine authorized_read rfl fun hbarred answer hanswer => ?_
  obtain ⟨e, rfl⟩ := h hbarred
  obtain rfl : answer = errorMessage e.toWire := by
    simpa [SocketServer.answered, Handled.answers] using hanswer
  rfl

/-! ### Messages -/

section

variable {roomCfg : RoomConfig D} {r : Room D} {deviceId userId : String} {e : Failure}

theorem promote_of_requireRole
    (h : requireRole roomCfg.vaultId deviceId userId true r.data = .error e) {connection : ℕ} :
    r.promote roomCfg now clientID deviceId userId connection
      = { result := .error e, room := r } := by
  simp [Room.promote, h]

theorem handleUpdate_of_requireRole
    (h : requireRole roomCfg.vaultId deviceId userId true r.data = .error e)
    {roomEpoch updateId : ℕ} {update : D} :
    r.handleUpdate roomCfg busy now deviceId userId roomEpoch updateId update
      = { result := .error e, room := r } := by
  simp [Room.handleUpdate, h]

theorem restoreHistoryVersion_of_requireRole
    (h : requireRole roomCfg.vaultId deviceId userId true r.data = .error e) {versionId : ℕ}
    {requestId : String} :
    r.restoreHistoryVersion roomCfg busy now uuid clientID deviceId userId versionId requestId
      = { result := .error e, room := r } := by
  simp [Room.restoreHistoryVersion, h]

theorem listHistory_of_requireRole
    (h : requireRole roomCfg.vaultId deviceId userId false r.data = .error e)
    {limit before : Option ℕ} : r.listHistory roomCfg deviceId userId limit before = .error e := by
  simp [Room.listHistory, h]

theorem getHistoryText_of_requireRole
    (h : requireRole roomCfg.vaultId deviceId userId false r.data = .error e) {versionId : ℕ} :
    r.getHistoryText roomCfg deviceId userId versionId = .error e := by
  simp [Room.getHistoryText, h]

/-- A dormant room has nothing to flush. -/
theorem demote_of_inactive (roomCfg : RoomConfig D) (busy : RoomSink → Bool) (now : Time)
    (uuid : Uuid) (deviceId : String) (h : ¬ r.runtime.persisted.active = true) :
    (r.demote roomCfg busy now uuid deviceId none .demoted).room = r ∧
      (r.demote roomCfg busy now uuid deviceId none .demoted).sent = [] := by
  simp [Room.demote, Room.demoteLocked, h]

end

/-- A call that asks for a role that writes is authorized. -/
theorem authorized_writer {α : Type} {vaultId fileId : String} {outcome : Outcome D α}
    {reply : α → List (SocketMessage D)}
    (h : ∀ e, requireRole connection.vaultId connection.deviceId connection.userId true s.sync.data
        = .error e → outcome = { result := .error e, room := s.note vaultId fileId }) :
    Authorized connection s (s.called vaultId fileId outcome reply) := by
  by_cases hwrite : MayWrite connection s.sync.data
  · exact authorized_of_mayWrite hwrite
  · obtain ⟨e, he⟩ := requireRole_of_not_mayWrite hwrite
    exact authorized_called_error (h e he)

/-- **A checked message is authorized.** -/
theorem authorized_of_checked {claims : AccessClaims} {message : ValidatedClientMessage D}
    (h : Checked cfg s claims.toConnection message) :
    Authorized claims.toConnection s
      (handleMessage cfg busy now uuid clientID socket claims.toConnection s message) := by
  -- one case for each message; those that read get what the checks left to read
  cases message with
  | hello | restore =>
    exact authorized_read rfl (by simp [handleMessage, Handled.answers, errorMessage,
      SocketMessage.carriesVaultData])
  | fileOp op => exact authorized_fileOp h
  | getOps sinceSeq =>
    refine authorized_read rfl fun hbarred => ?_
    have hnone := listOps_eq_nil opsPageSize fun hsome => h hsome hbarred
    simp [handleMessage, Handled.answers, SocketMessage.carriesVaultData, hnone]
  | getManifest cursor =>
    cases cursor with
    | ok place => exact authorized_read rfl fun hbarred => absurd hbarred (h ⟨place, rfl⟩)
    | error e =>
      exact authorized_read rfl (by simp [handleMessage, Handled.answers, SocketServer.answered,
        errorMessage, SocketMessage.carriesVaultData])
  | listTrash =>
    refine authorized_read rfl fun hbarred => ?_
    have hnone := trashItems_eq_nil fun hsome => h hsome hbarred
    simp [handleMessage, Handled.answers, SocketMessage.carriesVaultData, hnone]
  | getContent hash => exact authorized_getContent h
  | blobUploadInit hash size =>
    by_cases hannounces : Announces s.sync.data hash size
    · exact authorized_of_mayWrite (h hannounces)
    · -- nothing is announced: the answer alone, which carries no content
      have hsame := unchanged_blobUploadInit claims.toConnection hannounces
      exact authorized_answered hsame carriesVaultData_toWire fun _ _ => rfl
  | blobUploadComplete hash =>
    by_cases hcompletes : Completes cfg.room.platform s hash
    · exact authorized_of_mayWrite (h hcompletes)
    · refine authorized_answered (unchanged_of_data ?_ rfl) carriesVaultData_toWire fun _ _ => rfl
      exact completeUpload_of_not_completes hcompletes
  | claimConflict conflictId =>
    refine authorized_conflict h fun haccess => ?_
    exact authorized_answered (unchanged_of_data (claim_of_not_accessible haccess) rfl)
      (fun _ => rfl) fun _ _ => rfl
  | releaseConflict conflictId =>
    refine authorized_conflict h fun haccess => ?_
    exact authorized_answered (unchanged_of_data (release_of_not_accessible haccess) rfl)
      (fun _ => rfl) fun _ _ => rfl
  | resolveConflict conflictId resolvedHash inlineText resolvedVV =>
    refine authorized_conflict h fun haccess => ?_
    exact authorized_answered (unchanged_of_data (resolve_of_not_accessible rfl rfl haccess) rfl)
      (fun _ => rfl) fun _ _ => rfl
  | promote fileId => exact authorized_writer fun e he => promote_of_requireRole he
  | yjsUpdate fileId roomEpoch updateId update =>
    exact authorized_writer fun e he => handleUpdate_of_requireRole he
  | historyRestore requestId fileId versionId =>
    exact authorized_writer fun e he => restoreHistoryVersion_of_requireRole he
  | historyList requestId fileId limit before =>
    refine authorized_role fun hbarred => ?_
    obtain ⟨e, he⟩ := requireRole_of_barred false hbarred
    exact ⟨e, listHistory_of_requireRole he⟩
  | historyGet requestId fileId versionId =>
    refine authorized_role fun hbarred => ?_
    obtain ⟨e, he⟩ := requireRole_of_barred false hbarred
    exact ⟨e, getHistoryText_of_requireRole he⟩
  | demote fileId =>
    by_cases hactive : (s.note claims.vaultId fileId).runtime.persisted.active = true
    · exact authorized_of_mayWrite (h hactive)
    · obtain ⟨hroom, hsent⟩ := demote_of_inactive (cfg.room.ofNote claims.vaultId fileId) busy now
        uuid claims.deviceId hactive
      refine authorized_called ?_ (fun _ _ => rfl) ?_
      · rw [hroom]
        exact Room.Kept.refl _
      · simp [hsent]
  | yjsHeartbeat fileId roomEpoch => exact authorized_heartbeat h
  | yjsSync fileId roomEpoch stateVector => exact authorized_sync h
  | yjsAwareness fileId roomEpoch state => exact authorized_awareness h
  | leaveRoom fileId roomEpoch => exact authorized_leave h

/-! ### Runs -/

/-- The server with the connections that are past `hello`, by socket. -/
structure LiveServer (D : Type) where
  sockets : SocketServer D
  connections : ℕ → Option AccessClaims := fun _ => none

/-- What happens: a connection says `hello` with a token that is valid, sends a message or
closes; a user loses the membership of a vault; or something else happens, which includes what
revokes devices and changes roles. -/
inductive LiveEvent (D : Type)
  | hello (socket : ℕ) (claims : AccessClaims)
  | message (socket : ℕ) (now : Time) (uuid : Uuid) (clientID : ℕ)
      (message : ValidatedClientMessage D)
  | close (socket : ℕ)
  | removeMember (vaultId userId : String)
  | other (event : SocketEvent D)

/-- A row of `vault_members` is deleted. -/
def Store.removeMember (s : Store) (vaultId userId : String) : Store :=
  { s with roles := s.roles.erase (vaultId, userId) }

/-- The checks of `hello` on the tables. -/
def admits (claims : AccessClaims) (data : Store) : Bool :=
  (data.getDevice claims.deviceId).any fun device =>
    device.revoked = false ∧ device.userId = claims.userId ∧ device.vaultId = claims.vaultId ∧
      (data.getRole claims.vaultId claims.userId).isSome

/-- What a room is to the other rooms. -/
def RoomServer.state (t : RoomServer D) : RoomState D :=
  { roomStore := t.roomStore, runtime := t.runtime }

/-- `RoomManager.disconnect`: the device leaves the rooms in memory. -/
def SocketServer.disconnect (s : SocketServer D) (deviceId : String) : SocketServer D :=
  { s with sync := { s.sync with rooms := fun note =>
      ((s.sync.room note.1 note.2).inMemory fun r => r.disconnect deviceId).state } }

/-- The server and its sockets after an event. -/
def liveStep (cfg : SocketConfig D) (s : LiveServer D) : LiveEvent D → LiveServer D
  | .hello socket claims =>
    if (s.connections socket).isNone && admits claims s.sockets.sync.data then
      { s with connections := Function.update s.connections socket (some claims) }
    else s
  | .message socket now uuid clientID message =>
    match s.connections socket with
    | none => s
    | some claims =>
      { s with sockets := (handleMessage cfg ready now uuid clientID socket claims.toConnection
          s.sockets message).server }
  | .close socket =>
    match s.connections socket with
    | none => s
    | some claims =>
      { sockets := s.sockets.disconnect claims.deviceId
        connections := Function.update s.connections socket none }
  | .removeMember vaultId userId =>
    { s with sockets := s.sockets.withData (s.sockets.sync.data.removeMember vaultId userId) }
  | .other .restart => { sockets := socketStep cfg.room s.sockets .restart }
  | .other event => { s with sockets := socketStep cfg.room s.sockets event }

/-- A message of a connection past `hello` is authorized, whichever sockets are behind. -/
def MessageAuthorized (cfg : SocketConfig D) (s : LiveServer D) : LiveEvent D → Prop
  | .message socket now uuid clientID message => ∀ claims ∈ s.connections socket, ∀ busy,
      Authorized claims.toConnection s.sockets
        (handleMessage cfg busy now uuid clientID socket claims.toConnection s.sockets message)
  | _ => True

/-- A message of a connection past `hello` is checked where that matters. -/
def MessageChecked (cfg : SocketConfig D) (s : LiveServer D) : LiveEvent D → Prop
  | .message socket _ _ _ message => ∀ claims ∈ s.connections socket,
      Checked cfg s.sockets claims.toConnection message
  | _ => True

/-- **In every run in which messages are checked where that matters, they are authorized**,
judged by the tables when each is handled. -/
theorem authorized_run (cfg : SocketConfig D) {s : LiveServer D} {es : List (LiveEvent D)}
    (hes : Run.EachStep (liveStep cfg) (MessageChecked cfg) s es) :
    Run.EachStep (liveStep cfg) (MessageAuthorized cfg) s es := by
  refine hes.mono fun s e h => ?_
  cases e with
  | message socket now uuid clientID message =>
    intro claims hclaims busy
    exact authorized_of_checked (h claims hclaims)
  | hello | close | removeMember | other => trivial

end

/-! ### A device that is revoked -/

theorem shorter_than_collab {deviceId : String} (h : deviceId.length < 7) (fileId : String) :
    deviceId ≠ "collab:" ++ fileId := by
  rintro rfl
  have hprefix : "collab:".length = 7 := by decide
  have hlength := String.length_append "collab:" fileId
  omega

/-- The claims of the device that wrote the note. -/
def sampleClaims : AccessClaims :=
  { vaultId := "v", deviceId := "d1", userId := "u", user := by decide
    device := shorter_than_collab (by decide) }

/-- A server without sockets. -/
def sampleLive : LiveServer (Finset Write) := { sockets := { sync := { data := sampleStore } } }

/-- What the sample server runs on. -/
def sampleLiveConfig : SocketConfig (Finset Write) := { room := sampleRoom, collate := compare }

/-- The row of the device, revoked. -/
def sampleRevoked : StoredDevice :=
  { deviceId := "d1", userId := "u", vaultId := "v", lastDeviceSeq := 1, lastSeq := 1
    revoked := true }

/-- A connection says hello, sends an op, and is revoked. -/
def sampleRevocation : List (LiveEvent (Finset Write)) :=
  [.hello 0 sampleClaims,
   .message 0 0 (sampleId 0) 1 (.fileOp
     (sampleContentOp .create "o1" "d1" "f1" 1 (some "a.md") (sampleVV "d1" 1) "one")),
   .other (.saveDevice sampleRevoked)]

/-- The server after that. -/
def sampleRevokedServer : LiveServer (Finset Write) :=
  Run.final (liveStep sampleLiveConfig) sampleLive sampleRevocation

theorem connections_sampleRevokedServer :
    sampleRevokedServer.connections 0 = some sampleClaims := rfl

/-- What is read and written before and after the device is revoked: it gets what was logged
until then, and neither reads nor writes afterwards. -/
def sampleCheckedRun : List (LiveEvent (Finset Write)) :=
  sampleRevocation ++
    [.message 0 1 (sampleId 1) 2 (.fileOp
       (sampleContentOp .update "o2" "d1" "f1" 2 none (sampleVV "d1" 2) "two")),
     .message 0 2 (sampleId 2) 3 (.historyList "r" "f1" none none),
     .message 0 3 (sampleId 3) 4 (.promote "f1"),
     .message 0 4 (sampleId 4) 5 (.getOps 1)]

/-- The theorem on that run. -/
theorem authorized_checkedRun :
    Run.EachStep (liveStep sampleLiveConfig) (MessageAuthorized sampleLiveConfig) sampleLive
      sampleCheckedRun := by
  refine authorized_run sampleLiveConfig ⟨trivial, ?_, trivial, ?_, ?_, ?_, ?_, trivial⟩
  · exact fun _ _ hdelete => absurd hdelete (by decide)
  · exact fun _ _ hdelete => absurd hdelete (by decide)
  · exact fun _ _ => trivial
  · exact fun _ _ => trivial
  · -- nothing was logged after the first op
    intro claims hclaims hsome
    obtain rfl : sampleClaims = claims := Option.some.inj hclaims
    revert hsome
    decide +kernel

/-- **A revoked device is sent the ops of its vault**: it asks for them on the connection it
has. -/
theorem not_authorized_revokedReader :
    ¬ ∀ es : List (LiveEvent (Finset Write)),
      Run.EachStep (liveStep sampleLiveConfig) (MessageAuthorized sampleLiveConfig) sampleLive
        es := by
  intro h
  have hrun := h (sampleRevocation ++ [.message 0 1 (sampleId 1) 2 (.getOps 0)])
  have hread := hrun.2.2.2.1 sampleClaims connections_sampleRevokedServer ready
  have hsilent := (hread.barred (by decide +kernel)).1
  have hsent : ∃ answer ∈ (handleMessage sampleLiveConfig ready 1 (sampleId 1) 2 0
      sampleClaims.toConnection sampleRevokedServer.sockets (.getOps 0)).answers "d1",
      answer.carriesVaultData = true := by
    decide +kernel
  obtain ⟨answer, hanswer, hdata⟩ := hsent
  simp [hsilent answer hanswer] at hdata

end ObsidianSync
