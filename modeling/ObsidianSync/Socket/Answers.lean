import ObsidianSync.Socket.System

/-!
# Answers to ops

A client keeps an op in flight until an `op_ack` or a `reject` with its id comes back.  The
server answers so where the processor does; where a guard of the socket refuses the op, or
the processor throws, the sender is sent an error without the id, and where the processor
finds another op under the device sequence, the answer is that of the other op.

## Main definitions

* `fileOpSent` — what the sender of a `file_op` is sent.
* `AnsweredOwn` — it is one answer, and the op's own.
* `Answerable` — the guards let the op through, its sequence was not used by another op,
  and the paths it leads to are valid.

## Main results

* `process_throws_iff` — when the processor throws.
* `answeredOwn_iff` — **in every reachable state an op gets its own answer exactly if it is
  answerable.**
* `not_answeredOwn_illegalPath` — an op with an illegal path gets an error without its id.
-/

namespace ObsidianSync

/-! ### What is sent -/

/-- `errorToWire`. -/
def SocketFailure.toWire : SocketFailure → ServerMessage
  | .sync error => .error error.code error.message
  | .path error => .error .INTERNAL error.message
  | .storage => .error .INTERNAL "NotFound"

/-- The message that answers a `file_op`, or reports what its handler threw. -/
def fileOpAnswer : Except SocketFailure OpApplyResult → ServerMessage
  | .ok (.ack result) =>
    .opAck result.opId result.vaultSeq result.resultingClocks result.conflictId
  | .ok (.reject result) => .reject result.opId result.code result.message result.details
  | .error failure => failure.toWire

section

variable {D : Type} (P : Platform)

/-- What the sender of a `file_op` is sent.  `send` drops the message where the socket is
not ready: it is not open, or too much is buffered on it. -/
def fileOpSent (ready : Bool) (s : SocketServer D) (connection : Connection) (now : Time)
    (uuid : Uuid) (op : FileOp) : List ServerMessage :=
  if ready then [fileOpAnswer (s.fileOp P connection now uuid op).1] else []

/-- The message answers the op: with a reject, or with an ack of an op in the log. -/
def AnswersOp (op : FileOp) (log : List StoredOp) : ServerMessage → Prop
  | .opAck opId _ _ _ => opId = op.opId ∧ ∃ logged ∈ log, logged.opId = op.opId
  | .reject opId _ _ _ => opId = some op.opId
  | _ => False

/-- **The op gets its own answer**: the sender is sent one message that answers it, and the
processor does not throw on it. -/
structure AnsweredOwn (ready : Bool) (s : SocketServer D) (connection : Connection) (now : Time)
    (uuid : Uuid) (op : FileOp) : Prop where
  sent : ∃ answer, fileOpSent P ready s connection now uuid op = [answer] ∧
    AnswersOp op (s.fileOp P connection now uuid op).2.sync.data.ops answer
  notThrown : ∀ e,
    (process P now uuid op (some connection.userId) s.sync.data).1 ≠ .error e

/-! ### The condition -/

/-- The device of the op may write to the vault. -/
structure DeviceAllowed (op : FileOp) (userId : String) (device : StoredDevice) (s : Store) :
    Prop where
  ordinary : syntheticCollab op = false
  getDevice : s.getDevice op.deviceId = some device
  vaultId : device.vaultId = op.vaultId
  active : device.revoked = false
  role : truthy (some userId) = true →
    (s.getRole op.vaultId userId).elim false Role.canWrite = true

/-- A new op with a sequence its device has used does not meet the op it was used for. -/
def SeqNotReplayed (op : FileOp) (userId : String) (s : Store) : Prop :=
  s.getOpById op.opId = none → ∀ device, DeviceAllowed op userId device s →
    op.deviceSeq ≤ device.lastDeviceSeq → s.getOpByDeviceSeq op.deviceId op.deviceSeq = none

/-- The op is new, and its device and sequence let it in. -/
def Enters (op : FileOp) (userId : String) (s : Store) : Prop :=
  s.getOpById op.opId = none ∧ checkDevice op (some userId) s = none

/-- The op has its ids and a safe sequence, and a path where its kind needs one. -/
structure Identified (op : FileOp) : Prop where
  opId : op.opId ≠ ""
  deviceId : op.deviceId ≠ ""
  vaultId : op.vaultId ≠ ""
  fileId : op.fileId ≠ ""
  safe : isSafeInteger op.deviceSeq = true
  deviceSeq : 1 ≤ op.deviceSeq
  newPath : op.kind = .create ∨ op.kind = .rename → truthy op.newPath = true

/-- A restore comes to the row of its file: the payload is valid and the guards on the row
let it pass. -/
structure RestoresRow (now : Time) (op : FileOp) (s : Store) (row : StoredFile) : Prop where
  kind : op.kind = .restore
  payload : (validatePayload P op s).1 = .ok ()
  opRow : opRow op s = some row
  notActive : syntheticCollab op = false → isActive now row = false
  notFrozen : truthy row.conflictId = false

/-- The paths an op leads to are valid: the one it names, and the one a restore gives its
file. -/
structure PathsValid (now : Time) (op : FileOp) (s : Store) : Prop where
  newPath : truthy op.newPath = true →
    ∃ path, normalizePath P (op.newPath.getD "") = .ok path
  restored : ∀ row, RestoresRow P now op s row →
    ∃ path, normalizePath P (op.newPath.getD row.path) = .ok path

/-- The op can be answered. -/
structure Answerable (ready : Bool) (s : SocketServer D) (connection : Connection) (now : Time)
    (op : FileOp) : Prop where
  ready : ready = true
  device : op.deviceId = connection.deviceId
  vault : op.vaultId = connection.vaultId
  access : assertOpContentAccess s connection op = .ok ()
  notReplayed : SeqNotReplayed op connection.userId s.sync.data
  paths : Enters op connection.userId s.sync.data → Identified op →
    PathsValid P now op s.sync.data

end

/-! ### Errors of the appliers -/

section

variable {P : Platform} {now : Time} {uuid : Uuid} {op : FileOp} {s tx : Store}

theorem normalized_error {raw : String} {e : Failure} (h : normalized P raw = .error e) :
    ∃ error, e = .path error ∧ normalizePath P raw = .error error := by
  unfold normalized at h
  cases hpath : normalizePath P raw with
  | ok path => simp [hpath, Except.mapError] at h
  | error error =>
    refine ⟨error, ?_, rfl⟩
    simpa [hpath, Except.mapError] using h.symm

theorem uniquePathFrom_error {vaultId desired fileId : String} {fuel n : ℕ} {candidate : String}
    {e : Failure} (h : uniquePathFrom P tx vaultId desired fileId fuel n candidate = .error e) :
    ∃ error, e = .sync error := by
  induction fuel generalizing n candidate with
  | zero => exact ⟨_, (Except.error.inj h).symm⟩
  | succ fuel ih =>
    unfold uniquePathFrom at h
    split at h
    · simp at h
    · split at h
      · simp at h
      · exact ih h

theorem uniquePath_error {vaultId desired fileId : String} {e : Failure}
    (h : uniquePath P tx vaultId desired fileId = .error e) : ∃ error, e = .sync error :=
  uniquePathFrom_error h

theorem applyUpdate_error {file : StoredFile} {e : Failure}
    (h : applyUpdate now uuid op file tx = .error e) : ∃ error, e = .sync error := by
  unfold applyUpdate at h
  dsimp only at h
  split at h
  · split at h
    · simp at h
    · exact ⟨_, (Except.error.inj h).symm⟩
  · simp at h

/-- An op whose own path is valid fails in no applier for a path but in that of restores. -/
theorem applyOp_path_error {row : Option StoredFile} {error : PathValidationError}
    (hpath : truthy op.newPath = true → ∃ path, normalizePath P (op.newPath.getD "") = .ok path)
    (hrequired : op.kind = .create ∨ op.kind = .rename → truthy op.newPath = true)
    (h : applyOp P now uuid op row tx = .error (.path error)) :
    ∃ file, row = some file ∧ op.kind = .restore ∧
      (syntheticCollab op = false → isActive now file = false) ∧
      truthy file.conflictId = false ∧
      normalizePath P (op.newPath.getD file.path) = .error error := by
  -- a path that was named is the same whatever stands in for a missing one
  have hnamed : ∀ default, op.kind = .create ∨ op.kind = .rename →
      ∃ path, normalized P (op.newPath.getD default) = .ok path := by
    intro default hkind
    obtain ⟨path, hok⟩ := hpath (hrequired hkind)
    obtain ⟨raw, hraw⟩ : ∃ raw, op.newPath = some raw := by
      cases hraw : op.newPath with
      | none => simp [hraw] at hrequired; exact absurd hkind (by simpa using hrequired)
      | some raw => exact ⟨raw, rfl⟩
    refine ⟨path, normalized_ok_iff.mpr ?_⟩
    simpa [hraw] using hok
  have hsync : ∀ {failure : Failure}, (∃ error, failure = .sync error) →
      failure ≠ .path error := by
    rintro _ ⟨_, rfl⟩
    simp
  unfold applyOp at h
  split at h
  · simp [fail] at h
  next hactive =>
  split at h
  · simp [fail] at h
  next hfrozen =>
  split at h
  · -- a create
    next hkind =>
    obtain ⟨path, hok⟩ := hnamed op.fileId (Or.inl hkind)
    unfold applyCreate at h
    simp only [hok] at h
    split at h
    · split at h
      · next hunique => exact absurd (Except.error.inj h) (hsync (uniquePath_error hunique))
      · simp at h
    · split at h
      · exact absurd rfl (hsync (applyUpdate_error h))
      · split at h
        · next hunique => exact absurd (Except.error.inj h) (hsync (uniquePath_error hunique))
        · simp at h
  · -- an update
    cases row with
    | none => simp [requiredFile, fail] at h
    | some file => exact absurd rfl (hsync (applyUpdate_error h))
  · -- a rename
    next hkind =>
    cases row with
    | none => simp [requiredFile, fail] at h
    | some file =>
      obtain ⟨path, hok⟩ := hnamed file.path (Or.inr hkind)
      simp only [requiredFile, applyRename, hok] at h
      unfold requiredPathClock at h
      split at h
      · next hclock =>
        split at hclock
        · simp [fail] at hclock; simp [← hclock] at h
        · split at hclock
          · simp [fail] at hclock; simp [← hclock] at h
          · simp at hclock
      · split at h
        · simp at h
        · split at h
          · next hunique => exact absurd (Except.error.inj h) (hsync (uniquePath_error hunique))
          · simp at h
  · -- a delete
    cases row with
    | none => simp [requiredFile, fail] at h
    | some file => simp [requiredFile] at h
  · -- a restore
    next hkind =>
    cases row with
    | none => simp [requiredFile, fail] at h
    | some file =>
      refine ⟨file, rfl, hkind, ?_, ?_, ?_⟩
      · intro hcollab
        simpa [hcollab, hkind, OpKind.isContent] using hactive
      · simpa [hkind, OpKind.isContent] using hfrozen
      · simp only [requiredFile, applyRestore] at h
        split at h
        · next hnormalized =>
          obtain ⟨error', rfl, hpath⟩ := normalized_error hnormalized
          rw [hpath]
          simpa using h
        · split at h
          · next hunique => exact absurd (Except.error.inj h) (hsync (uniquePath_error hunique))
          · simp at h

/-! ### When the processor throws -/

/-- Validation stops at the path of an op that has all it must have. -/
theorem validatePayload_path_error (hop : Identified op) (hpath : truthy op.newPath = true)
    {error : PathValidationError}
    (herror : normalizePath P (op.newPath.getD "") = .error error) :
    validatePayload P op s = (.error (.path error), s) := by
  have hseq : ¬ op.deviceSeq < 1 := Nat.not_lt.mpr hop.deviceSeq
  simp [validatePayload, hop.opId, hop.deviceId, hop.vaultId, hop.fileId, hop.safe, hseq, hpath,
    normalized, herror, Except.mapError]

/-- What an op has that passes the first two checks of the validation. -/
theorem identified_of_checks
    (hids : ¬ (op.opId = "" || op.deviceId = "" || op.vaultId = "" || op.fileId = "" ||
      !isSafeInteger op.deviceSeq || op.deviceSeq < 1) = true)
    (hrequired : ¬ ((op.kind = .create || op.kind = .rename) && !truthy op.newPath) = true) :
    Identified op := by
  simp only [Bool.or_eq_true, decide_eq_true_eq, Bool.not_eq_true', not_or,
    Bool.not_eq_false] at hids
  obtain ⟨⟨⟨⟨⟨hopId, hdeviceId⟩, hvaultId⟩, hfileId⟩, hsafe⟩, hseq⟩ := hids
  refine ⟨hopId, hdeviceId, hvaultId, hfileId, hsafe, Nat.not_lt.mp hseq, fun hkind => ?_⟩
  by_contra hnone
  exact hrequired (by simp [hkind, hnone])

theorem identified_of_validatePayload_ok {u : Unit} {tx : Store}
    (h : validatePayload P op s = (.ok u, tx)) : Identified op := by
  unfold validatePayload at h
  split at h
  · simp [fail] at h
  next hids =>
  split at h
  · simp [fail] at h
  next hrequired => exact identified_of_checks hids hrequired

/-- Where validation throws, the op has all it must have and a path that is not valid. -/
theorem of_validatePayload_path_error {error : PathValidationError} {tx : Store}
    (h : validatePayload P op s = (.error (.path error), tx)) :
    Identified op ∧ truthy op.newPath = true ∧
      normalizePath P (op.newPath.getD "") = .error error := by
  unfold validatePayload at h
  split at h
  · simp [fail] at h
  next hids =>
  split at h
  · simp [fail] at h
  next hrequired =>
  have hop := identified_of_checks hids hrequired
  split at h
  · next e hnormalized =>
    obtain rfl : e = .path error := by simpa using congrArg Prod.fst h
    split at hnormalized
    · next hpath =>
      obtain ⟨error', heq, hnormalize⟩ := normalized_error hnormalized
      obtain rfl : error = error' := by simpa using heq
      exact ⟨hop, hpath, hnormalize⟩
    · simp at hnormalized
  · -- the checks on the content throw nothing
    exfalso
    have hcontent : ∀ {hash : String} {tx : Store},
        validateContent P op hash s ≠ (.error (.path error), tx) := by
      intro hash tx hcontent
      unfold validateContent at hcontent
      have hblob : ∀ tx, checkBlob op tx ≠ .error (.path error) := by
        intro tx hblob
        unfold checkBlob at hblob
        repeat' (first | split at hblob | simp [fail] at hblob)
      repeat' split at hcontent
      all_goals first
        | (simp [fail] at hcontent; done)
        | exact hblob _ (congrArg Prod.fst hcontent)
    split at h
    · exact hcontent h
    · simp at h

/-- **When the processor throws**: on an op that enters with all it must have, and leads to
a path that is not valid. -/
theorem process_throws_iff {userId : String} :
    (∃ e, (process P now uuid op (some userId) s).1 = .error e) ↔
      Enters op userId s ∧ Identified op ∧ ¬ PathsValid P now op s := by
  constructor
  · rintro ⟨error, h⟩
    unfold process at h
    split at h
    · simp at h
    next hfresh =>
    split at h
    · simp at h
    next hdevice =>
    refine ⟨⟨hfresh, hdevice⟩, ?_⟩
    have hanswer : ∀ {e}, answerFailure op e = .error error → e = .path error := by
      intro e he
      cases e with
      | sync => simp [answerFailure] at he
      | path e => simpa [answerFailure] using he
    split at h
    · next e tx hvalidate =>
      obtain rfl := hanswer h
      obtain ⟨hop, hpath, herror⟩ := of_validatePayload_path_error hvalidate
      refine ⟨hop, fun hvalid => ?_⟩
      obtain ⟨path, hok⟩ := hvalid.newPath hpath
      simp [herror] at hok
    · next u tx hvalidate =>
      obtain ⟨hpayload, rfl⟩ := validatePayload_ok hvalidate
      split at h
      · next e happly =>
        obtain rfl := hanswer h
        have hrow : (checkedContent op s).getFile op.vaultId op.fileId = opRow op s :=
          (frame_checkedContent op s).1.getFile op.vaultId op.fileId
        rw [hrow] at happly
        obtain ⟨file, hfile, hkind, hactive, hfrozen, herror⟩ :=
          applyOp_path_error hpayload.canonical hpayload.newPath happly
        refine ⟨identified_of_validatePayload_ok hvalidate, fun hvalid => ?_⟩
        obtain ⟨path, hok⟩ := hvalid.restored file
          ⟨hkind, by rw [hvalidate], hfile, hactive, hfrozen⟩
        simp [herror] at hok
      · simp at h
  · rintro ⟨⟨hfresh, hdevice⟩, hop, hvalid⟩
    -- either path leads to the throw
    have hcases : (truthy op.newPath = true ∧
          ∃ error, normalizePath P (op.newPath.getD "") = .error error) ∨
        ∃ row, RestoresRow P now op s row ∧
          ∃ error, normalizePath P (op.newPath.getD row.path) = .error error := by
      have herror : ∀ raw, (¬ ∃ path, normalizePath P raw = .ok path) →
          ∃ error, normalizePath P raw = .error error := by
        intro raw hnone
        cases hraw : normalizePath P raw with
        | ok path => exact absurd ⟨path, hraw⟩ hnone
        | error error => exact ⟨error, rfl⟩
      by_contra hneither
      rw [not_or] at hneither
      refine hvalid ⟨fun hpath => ?_, fun row hrow => ?_⟩
      · by_contra hnone
        exact hneither.1 ⟨hpath, herror _ hnone⟩
      · by_contra hnone
        exact hneither.2 ⟨row, hrow, herror _ hnone⟩
    rcases hcases with ⟨hpath, error, herror⟩ | ⟨row, hrow, error, herror⟩
    · refine ⟨error, ?_⟩
      simp only [process, hfresh, hdevice, validatePayload_path_error hop hpath herror,
        answerFailure]
    · refine ⟨error, ?_⟩
      rcases hvalidate : validatePayload P op s with ⟨e | u, tx⟩
      · exact absurd hrow.payload (by simp [hvalidate])
      · obtain ⟨-, rfl⟩ := validatePayload_ok hvalidate
        have hget : (checkedContent op s).getFile op.vaultId op.fileId = some row := by
          rw [(frame_checkedContent op s).1.getFile]
          exact hrow.opRow
        have happly : applyOp P now uuid op (some row) (checkedContent op s)
            = .error (.path error) := by
          have hactive : (!syntheticCollab op && isActive now row) = false := by
            cases hcollab : syntheticCollab op with
            | true => rfl
            | false => simp [hrow.notActive hcollab]
          simp [applyOp, hrow.kind, OpKind.isContent, hactive, hrow.notFrozen, requiredFile,
            applyRestore, normalized, herror, Except.mapError]
        simp only [process, hfresh, hdevice, hvalidate, hget, happly, answerFailure]

/-! ### Answers of the processor -/

/-- Every entry of a log is an ack under its own id. -/
def LogAcks (s : Store) : Prop :=
  ∀ logged ∈ s.ops, ∃ result, logged.result = .ack result ∧ result.opId = logged.opId

/-- What the checks on a device answer a new op: a reject of the op, or the recorded answer
of the op its device sent under the same sequence. -/
theorem checkDevice_answer {userId : String} {answer : OpApplyResult}
    (h : checkDevice op (some userId) s = some answer) :
    (∃ e : OpRejectResult, answer = .reject e ∧ e.opId = some op.opId) ∨
      ∃ device prior, DeviceAllowed op userId device s ∧ op.deviceSeq ≤ device.lastDeviceSeq ∧
        s.getOpByDeviceSeq op.deviceId op.deviceSeq = some prior ∧ answer = prior.result := by
  unfold checkDevice at h
  split at h
  · simp at h
  next hordinary =>
  split at h
  · exact Or.inl ⟨_, (Option.some.inj h).symm, rfl⟩
  next device hdevice =>
  split at h
  · exact Or.inl ⟨_, (Option.some.inj h).symm, rfl⟩
  next hvault =>
  split at h
  · exact Or.inl ⟨_, (Option.some.inj h).symm, rfl⟩
  next hrevoked =>
  split at h
  · exact Or.inl ⟨_, (Option.some.inj h).symm, rfl⟩
  next hrole =>
  dsimp only at h
  split at h
  · next hseq =>
    split at h
    · next prior hprior =>
      refine Or.inr ⟨device, prior, ⟨by simpa using hordinary, hdevice, not_not.mp hvault,
        by simpa using hrevoked, fun huser => ?_⟩, by omega, hprior, (Option.some.inj h).symm⟩
      simpa [huser] using hrole
    · exact Or.inl ⟨_, (Option.some.inj h).symm, rfl⟩
  · split at h
    · exact Or.inl ⟨_, (Option.some.inj h).symm, rfl⟩
    · simp at h

/-- A used sequence is answered with what it was used for. -/
theorem checkDevice_replayed {userId : String} {device : StoredDevice} {prior : StoredOp}
    (hdevice : DeviceAllowed op userId device s) (hseq : op.deviceSeq ≤ device.lastDeviceSeq)
    (hprior : s.getOpByDeviceSeq op.deviceId op.deviceSeq = some prior) :
    checkDevice op (some userId) s = some prior.result := by
  have hrole : (truthy (some userId) &&
      !((s.getRole op.vaultId userId).elim false Role.canWrite)) = false := by
    cases huser : truthy (some userId) with
    | false => rfl
    | true => rw [hdevice.role huser]; rfl
  have hlt : op.deviceSeq < device.lastDeviceSeq + 1 := by omega
  simp only [checkDevice, hdevice.ordinary, hdevice.getDevice, hdevice.vaultId, hdevice.active,
    Option.getD_some, hrole, ne_eq, not_true, Bool.false_eq_true, if_false, hlt, if_true, hprior]

/-- **The processor answers an op**, if it answers and its sequence is not replayed. -/
theorem answersOp_process (hlog : LogAcks s) {userId : String}
    (hseq : SeqNotReplayed op userId s) {result : OpApplyResult}
    (h : (process P now uuid op (some userId) s).1 = .ok result) :
    AnswersOp op (process P now uuid op (some userId) s).2.ops (fileOpAnswer (.ok result)) := by
  have hreject : (∃ e : OpRejectResult, result = .reject e ∧ e.opId = some op.opId) →
      AnswersOp op (process P now uuid op (some userId) s).2.ops (fileOpAnswer (.ok result)) := by
    rintro ⟨e, rfl, hid⟩
    exact hid
  have hfailure : ∀ {e}, answerFailure op e = .ok result →
      ∃ e : OpRejectResult, result = .reject e ∧ e.opId = some op.opId := by
    intro e he
    cases e with
    | sync error =>
      simp only [answerFailure, reject, Except.ok.injEq] at he
      exact ⟨_, he.symm, rfl⟩
    | path error => simp [answerFailure] at he
  cases hfresh : s.getOpById op.opId with
  | some existing =>
    -- the op is known and has its recorded answer
    obtain ⟨hmem, hid⟩ := Store.mem_of_getOpById hfresh
    obtain ⟨ack, hack, hackId⟩ := hlog existing hmem
    simp only [process, hfresh, Except.ok.injEq] at h ⊢
    rw [← h, hack]
    exact ⟨hackId.trans hid, existing, hmem, hid⟩
  | none =>
    cases hdevice : checkDevice op (some userId) s with
    | some answer =>
      obtain rfl : answer = result := by simpa [process, hfresh, hdevice] using h
      rcases checkDevice_answer hdevice with hrejected | ⟨device, prior, hallowed, hle, hprior, -⟩
      · exact hreject hrejected
      · exact absurd (hseq hfresh device hallowed hle) (by simp [hprior])
    | none =>
      rcases hvalidate : validatePayload P op s with ⟨e | u, tx⟩
      · exact hreject (hfailure (by simpa [process, hfresh, hdevice, hvalidate] using h))
      · cases happly : applyOp P now uuid op (tx.getFile op.vaultId op.fileId) tx with
        | error e =>
          exact hreject (hfailure (by simpa [process, hfresh, hdevice, hvalidate, happly] using h))
        | ok applied =>
          have hops : (process P now uuid op (some userId) s).2
              = (commit now op (opDevice op s) applied).2 := by
            simp only [process, hfresh, hdevice, hvalidate, happly]
          simp only [process, hfresh, hdevice, hvalidate, happly, Except.ok.injEq] at h
          rw [← h, hops, commit_ack, commit_ops]
          exact ⟨rfl, loggedOp now op applied (applied.tx.nextSeq op.vaultId),
            List.mem_append_right _ List.mem_cons_self, rfl⟩

/-! ### Logs of acks -/

theorem LogAcks.congr {t : Store} (h : LogAcks s) (hops : t.ops = s.ops) : LogAcks t := by
  intro logged hlogged
  exact h logged (hops ▸ hlogged)

/-- Every entry of the log stays an ack. -/
theorem logAcks_serverStep (h : LogAcks s) (e : ServerEvent) : LogAcks (serverStep P s e) := by
  intro logged hlogged
  rw [ops_serverStep, List.mem_append, Option.mem_toList] at hlogged
  rcases hlogged with hlogged | hlogged
  · exact h logged hlogged
  cases e with
  | process now uuid op userId =>
    obtain ⟨applied, -, rfl⟩ := Option.map_eq_some_iff.mp hlogged
    exact ⟨_, rfl, rfl⟩
  | claim | release | resolve | saveDevice | setRole | saveBlob | putContent =>
    simp [loggedEntry] at hlogged

end

section

variable {D : Type} [SemilatticeSup D] [OrderBot D] {cfg : RoomConfig D}

/-- **Whatever happens, the log holds acks only.** -/
theorem logAcks_socketStep {s : SocketServer D} (h : LogAcks s.sync.data) (e : SocketEvent D) :
    LogAcks (socketStep cfg s e).sync.data := by
  refine invariant_socketStep (I := LogAcks) (fun _ e hdata => logAcks_serverStep hdata e)
    ?_ ?_ h e
  · intro data vaultId fileId activeUntil hdata
    refine hdata.congr ?_
    unfold setActiveUntil
    split <;> rfl
  · intro data vaultId fileId hdata
    refine hdata.congr ?_
    unfold clearActiveUntil
    split
    · rfl
    · split <;> rfl

/-! ### The guards -/

omit [SemilatticeSup D] [OrderBot D] in
/-- An op the guards let through is answered as the processor answers it. -/
theorem fileOp_of_guards {s : SocketServer D} {connection : Connection} {now : Time} {uuid : Uuid}
    {op : FileOp} (hdevice : op.deviceId = connection.deviceId)
    (hvault : op.vaultId = connection.vaultId)
    (haccess : assertOpContentAccess s connection op = .ok ()) (P : Platform) :
    (s.fileOp P connection now uuid op).1
        = (process P now uuid op (some connection.userId) s.sync.data).1.mapError .path ∧
      (s.fileOp P connection now uuid op).2.sync.data
        = (process P now uuid op (some connection.userId) s.sync.data).2 := by
  unfold SocketServer.fileOp
  rw [if_neg (by simp [hdevice, hvault]), haccess]
  dsimp only
  rcases process P now uuid op (some connection.userId) s.sync.data with
    ⟨e | result, data⟩
  · exact ⟨rfl, rfl⟩
  · cases result with
    | reject result => exact ⟨rfl, rfl⟩
    | ack result =>
      dsimp only
      split <;> exact ⟨rfl, rfl⟩

omit [SemilatticeSup D] [OrderBot D] in
/-- Only an op that the guards let through is answered at all. -/
theorem guards_of_answer {P : Platform} {s : SocketServer D} {connection : Connection} {now : Time}
    {uuid : Uuid} {op : FileOp} {log : List StoredOp}
    (h : AnswersOp op log (fileOpAnswer (s.fileOp P connection now uuid op).1)) :
    op.deviceId = connection.deviceId ∧ op.vaultId = connection.vaultId ∧
      assertOpContentAccess s connection op = .ok () := by
  have hnot : ∀ failure : SocketFailure, ¬ AnswersOp op log (fileOpAnswer (.error failure)) := by
    intro failure
    cases failure <;> exact id
  unfold SocketServer.fileOp at h
  split at h
  · exact absurd h (hnot _)
  next hown =>
  rw [not_or, not_not, not_not] at hown
  split at h
  · exact absurd h (hnot _)
  next haccess => exact ⟨hown.1, hown.2, haccess⟩

/-! ### Runs -/

/-- **An op gets its own answer exactly if it is answerable**, in every state that any run of
messages reaches from a server without a log. -/
theorem answeredOwn_iff (cfg : RoomConfig D) {s : SocketServer D} (hs : s.sync.data.ops = [])
    (es : List (SocketEvent D)) (ready : Bool) (connection : Connection) (now : Time)
    (uuid : Uuid) (op : FileOp) :
    AnsweredOwn cfg.platform ready (Run.final (socketStep cfg) s es) connection now uuid op ↔
      Answerable cfg.platform ready (Run.final (socketStep cfg) s es) connection now op := by
  have hlog : LogAcks (Run.final (socketStep cfg) s es).sync.data :=
    (Run.throughout_of_step (I := fun t : SocketServer D => LogAcks t.sync.data)
      (fun _ e h => logAcks_socketStep h e) (by simp [LogAcks, hs]) es).final
  generalize Run.final (socketStep cfg) s es = t at hlog
  have hthrows : (∃ e, (process cfg.platform now uuid op (some connection.userId)
        t.sync.data).1 = .error e) ↔
      Enters op connection.userId t.sync.data ∧ Identified op ∧
        ¬ PathsValid cfg.platform now op t.sync.data := process_throws_iff
  constructor
  · rintro ⟨⟨answer, hsent, hanswer⟩, hnot⟩
    have hready : ready = true := by
      cases ready with
      | true => rfl
      | false => simp [fileOpSent] at hsent
    obtain rfl : fileOpAnswer (t.fileOp cfg.platform connection now uuid op).1 = answer := by
      simpa [fileOpSent, hready] using hsent
    obtain ⟨hdevice, hvault, haccess⟩ := guards_of_answer hanswer
    refine ⟨hready, hdevice, hvault, haccess, ?_, ?_⟩
    · -- a replayed sequence would be answered for the op it was used for
      intro hfresh device hallowed hle
      by_contra hsome
      obtain ⟨prior, hprior⟩ := Option.ne_none_iff_exists'.mp hsome
      have hprocess : process cfg.platform now uuid op (some connection.userId) t.sync.data
          = (.ok prior.result, t.sync.data) := by
        simp only [process, hfresh, checkDevice_replayed hallowed hle hprior]
      have hmem : prior ∈ t.sync.data.ops :=
        List.mem_reverse.mp (List.mem_of_find?_eq_some hprior)
      obtain ⟨ack, hack, hackId⟩ := hlog prior hmem
      rw [(fileOp_of_guards hdevice hvault haccess cfg.platform).1, hprocess, hack] at hanswer
      obtain ⟨hid, -⟩ := hanswer
      exact Store.getOpById_eq_none_iff.mp hfresh prior hmem (hackId.symm.trans hid)
    · intro henters hop
      by_contra hinvalid
      obtain ⟨e, he⟩ := hthrows.mpr ⟨henters, hop, hinvalid⟩
      exact hnot e he
  · intro h
    -- every guard lets it through, and no path throws
    have hnot : ∀ e,
        (process cfg.platform now uuid op (some connection.userId) t.sync.data).1 ≠ .error e := by
      intro e he
      obtain ⟨henters, hop, hinvalid⟩ := hthrows.mp ⟨e, he⟩
      exact hinvalid (h.paths henters hop)
    obtain ⟨hanswer, hdata⟩ : (t.fileOp cfg.platform connection now uuid op).1
          = (process cfg.platform now uuid op (some connection.userId) t.sync.data).1.mapError
            .path ∧
        (t.fileOp cfg.platform connection now uuid op).2.sync.data
          = (process cfg.platform now uuid op (some connection.userId) t.sync.data).2 :=
      fileOp_of_guards h.device h.vault h.access cfg.platform
    refine ⟨⟨fileOpAnswer (t.fileOp cfg.platform connection now uuid op).1,
      by simp [fileOpSent, h.ready], ?_⟩, hnot⟩
    rw [hanswer, hdata]
    cases hresult : (process cfg.platform now uuid op (some connection.userId) t.sync.data).1 with
    | error e => exact absurd hresult (hnot e)
    | ok result => exact answersOp_process hlog h.notReplayed hresult

end

/-! ### Two ops -/

/-- A vault with one device, and nothing else. -/
def sampleAlone : SocketServer (Finset Write) := { sync := { data := sampleStore } }

/-- Its device. -/
def sampleSender : Connection := { vaultId := "v", deviceId := "d1", userId := "u" }

/-- The id of its first op. -/
def sampleOpId : String := "00000000-0000-4000-8000-000000000001"

/-- The device creates a note. -/
def sampleFirst : List (SocketEvent (Finset Write)) :=
  [.fileOp sampleSender 0 sampleUuid
    (sampleContentOp .create sampleOpId "d1" "f1" 1 (some "a.md") (sampleVV "d1" 1) "one")]

/-- The theorem on the delete of a note that was created. -/
theorem answeredOwn_sampleDelete :
    AnsweredOwn samplePlatform true (Run.final (socketStep sampleRoom) sampleAlone sampleFirst)
      sampleSender 1 sampleUuid (sampleDelete "00000000-0000-4000-8000-000000000002" "d1" "f1" 2) :=
  (answeredOwn_iff sampleRoom rfl sampleFirst true sampleSender 1 sampleUuid
    (sampleDelete "00000000-0000-4000-8000-000000000002" "d1" "f1" 2)).mpr
    { ready := rfl
      device := rfl
      vault := rfl
      access := rfl
      notReplayed := fun _ _ _ _ => by decide +kernel
      paths := fun _ _ => ⟨fun h => absurd h (by decide), fun _ h => absurd h.kind (by decide)⟩ }

/-- A create under a path no platform takes. -/
def sampleIllegal : FileOp :=
  sampleContentOp .create sampleOpId "d1" "f1" 1 (some "a?.md") (sampleVV "d1" 1) "one"

/-- **An illegal path is thrown**, and its op gets neither an ack nor a reject. -/
theorem not_answeredOwn_illegalPath :
    fileOpSent samplePlatform true sampleAlone sampleSender 0 sampleUuid sampleIllegal
        = [.error .INTERNAL "Invalid path \"a?.md\": illegal character"] ∧
      ¬ AnsweredOwn samplePlatform true (Run.final (socketStep sampleRoom) sampleAlone [])
        sampleSender 0 sampleUuid sampleIllegal := by
  refine ⟨by decide +kernel, fun h => ?_⟩
  exact h.notThrown ⟨"illegal character", "a?.md"⟩ (by decide +kernel)

end ObsidianSync
