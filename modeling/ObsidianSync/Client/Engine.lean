import ObsidianSync.Client.LocalIndex

/-!
# The sync engine

The engine of a client numbers and sends local changes, one at a time, and
applies what the server sends: acks, rejects, and batches of ops in vault order.

Messages to the server are appended to `outgoing`.  No file is open in a realtime
session here; sessions have their own modules.

## Main definitions

* `ClientConfig`, `Engine` — settings and state.
* `makeContentOp`, `makeRenameOp`, `makeDeleteOp` — drafts of local changes.
* `enqueueLocalChange`, `flushOutbox` — sending them.
* `handleAck`, `handleReject` — what an answer does.
* `applyOp`, `applyOps` — what a batch of ops does.
* `syncPath`, `handleRename`, `handleDelete` — the watcher's entry points.
-/

namespace ObsidianSync

/-- The settings the engine reads, and what it reaches outside the plugin. -/
structure ClientConfig where
  deviceId : String
  vaultId : String
  encryptionEnabled : Bool := false
  configSync : ConfigCategory → ConfigSyncMode := fun _ => .common
  /-- `SyncIgnore.ignores`. -/
  ignores : String → Bool := fun _ => false
  /-- Convergent encryption under the unlocked key. -/
  encryptForStorage : Bytes → Bytes := id
  /-- Content by hash, verified and decrypted; none where fetching it throws. -/
  fetchContentBytes : String → Option ContentEncryptionEncoding → Option Bytes

/-- The outcome of a forced op. -/
structure ForcePushOpResult where
  ok : Bool
  consumed : Bool := false
  message : Option String := none
  deriving DecidableEq, Repr

/-- The state of a client. -/
structure Engine where
  paused : Bool := false
  /-- The watcher is suspended. -/
  suspended : Bool := false
  index : LocalIndex
  outbox : OutboxManager
  vault : Vault := Table.empty
  lamport : ℕ := 0
  /-- `transport.readyState === "ready"`. -/
  transportReady : Bool := false
  handshakeComplete : Bool := false
  awaitingCatchup : Bool := false
  /-- The forced ops that wait for an answer, and the answers they got. -/
  forceWaiters : List String := []
  forceResults : List (String × ForcePushOpResult) := []
  outgoing : List ClientMessage := []
  deriving DecidableEq

namespace Engine

/-- `transport.send`. -/
def send (e : Engine) (message : ClientMessage) : Engine :=
  { e with outgoing := e.outgoing ++ [message] }

/-- The outbox goes into the index. -/
def persistOutbox (e : Engine) : Engine :=
  { e with index := e.index.setOutbox e.outbox.entries e.outbox.nextDeviceSeq }

/-- `requestResync`: ask for the ops after the last applied one. -/
def requestResync (e : Engine) : Engine := e.send (.getOps e.index.device.appliedSeq)

/-- The entry `flushOutbox` sends: the op in flight, else the first queued one. -/
def nextToSend (e : Engine) : Option OutboxEntry :=
  match e.outbox.retryable.find? fun entry => entry.status = .inflight with
  | some entry => some entry
  | none => e.outbox.retryable.find? fun entry => entry.status = .queued

/-- The next op that waits is sent, if the engine may send. -/
def flushOutbox (now : Time) (e : Engine) : Engine :=
  if !e.transportReady || e.paused || !e.handshakeComplete then e
  else
    match e.nextToSend with
    | none => e
    | some entry =>
      if entry.status = .inflight then e.send (.fileOp entry.op)
      else
        let e := { e with outbox := e.outbox.markInflight now entry.op.opId }
        persistOutbox (e.send (.fileOp entry.op))

/-- A change of this device goes into the outbox and on its way. -/
def enqueueLocalChange (now : Time) (uuid : Uuid) (draft : FileOpDraft) (e : Engine) : Engine :=
  flushOutbox now (persistOutbox { e with outbox := (e.outbox.enqueue now uuid draft).2 })

/-! ### Drafts -/

/-- `CONTENT_ENCRYPTION_ENCODING`. -/
def contentEncryptionEncoding : ContentEncryptionEncoding :=
  { algorithm := "aes-256-gcm-pbkdf2-sha256-convergent-v1", version := 1 }

/-- The content part of a draft. -/
structure ContentPayload where
  contentHash : String
  size : ℕ
  inlineText : Option String := none
  blobRef : Option String := none
  contentEncoding : Option ContentEncryptionEncoding := none
  deriving DecidableEq

/-- The plaintext of a file as it is encrypted; none where reading it throws. -/
def readPlaintextBytes (P : Platform) (vault : Vault) (path : String) : Option Bytes :=
  if isTextPath path then (vault.readBytes path).map fun bytes => encodeText (decodeText P bytes)
  else vault.readBytes path

/-- The content of a file as an op carries it: a blob of ciphertext, inline text,
or a blob.  Blobs are uploaded on the way. -/
def buildContentPayload (P : Platform) (cfg : ClientConfig) (vault : Vault) (path : String) :
    Option ContentPayload :=
  if cfg.encryptionEnabled then
    match readPlaintextBytes P vault path with
    | none => none
    | some plaintext =>
      let encrypted := cfg.encryptForStorage plaintext
      let hash := contentHash P encrypted
      some { contentHash := hash, size := encrypted.length, blobRef := some hash,
             contentEncoding := some contentEncryptionEncoding }
  -- the text is encoded again: a byte order mark is not hashed
  else if isTextPath path then
    match vault.readBytes path with
    | none => none
    | some bytes =>
      let text := decodeText P bytes
      some { contentHash := contentHashText P text, size := (encodeText text).length,
             inlineText := some text }
  else
    match vault.readBytes path with
    | none => none
    | some bytes =>
      let hash := contentHash P bytes
      some { contentHash := hash, size := bytes.length, blobRef := some hash }

/-- The vector an index entry has applied, empty for a file without one. -/
def appliedVV (entry : Option FileIndexEntry) : VersionVector :=
  entry.elim VersionVector.emptyVV FileIndexEntry.appliedContentVV

/-- The op for the content of a file, if there is any. -/
def makeContentOp (P : Platform) (cfg : ClientConfig) (e : Engine) (fileId path : String)
    (type : FileType) : Option FileOpDraft :=
  let entry := e.index.byFileId fileId
  let base := appliedVV entry
  -- the entry keeps its vector until the ack, so two saves share one
  let next := VersionVector.bump base cfg.deviceId
  match buildContentPayload P cfg e.vault path with
  | none => none
  | some payload =>
    some
      { vaultId := cfg.vaultId, fileId
        kind := if entry.isSome then .update else .create
        type
        newPath := some path
        baseContentVV := some base
        newContentVV := some next
        contentHash := some payload.contentHash
        size := some payload.size
        inlineText := payload.inlineText
        blobRef := payload.blobRef
        contentEncoding := payload.contentEncoding }

/-- The op for another path of a file. -/
def makeRenameOp (cfg : ClientConfig) (fileId newPath : String) (type : FileType) (e : Engine) :
    FileOpDraft × Engine :=
  let lamport := nextLamport e.lamport
  ({ vaultId := cfg.vaultId, fileId, kind := .rename, type, newPath := some newPath,
     pathClock := some { lamport, deviceId := cfg.deviceId } },
    { e with lamport })

/-- The op for the delete of a file. -/
def makeDeleteOp (cfg : ClientConfig) (fileId : String) (type : FileType) (e : Engine) :
    FileOpDraft × Engine :=
  let lamport := nextLamport e.lamport
  ({ vaultId := cfg.vaultId, fileId, kind := .delete, type,
     deleteClock := some { lamport, deviceId := cfg.deviceId } },
    { e with lamport })

/-! ### The watcher -/

/-- `syncPath`: enqueue the content of a path, under the file id the index has for
it or under a new one. -/
def syncPath (P : Platform) (cfg : ClientConfig) (now : Time) (opId fileId : Uuid)
    (path : String) (e : Engine) : Engine :=
  if cfg.ignores path || !e.vault.contains path then e
  else
    let entry := e.index.byPath path
    let id := (entry.map FileIndexEntry.fileId).getD fileId.1
    let type := (entry.map FileIndexEntry.type).getD (classifyFileType path)
    match makeContentOp P cfg e id path type with
    | none => e
    | some draft => enqueueLocalChange now opId draft e

/-- `handleRename`; a path that is not canonical makes it throw. -/
def handleRename (P : Platform) (cfg : ClientConfig) (now : Time) (opId fileId : Uuid)
    (oldPath newPath : String) (e : Engine) : Engine :=
  if e.suspended then e
  else
    match normalizePath P oldPath, normalizePath P newPath with
    | .ok oldCanonical, .ok newCanonical =>
      if cfg.ignores newCanonical then e
      else
        match e.index.byPath oldCanonical with
        | none => syncPath P cfg now opId fileId newCanonical e
        | some entry =>
          let (draft, e) := makeRenameOp cfg entry.fileId newCanonical entry.type e
          enqueueLocalChange now opId draft e
    | _, _ => e

/-- `handleDelete`. -/
def handleDelete (P : Platform) (cfg : ClientConfig) (now : Time) (opId : Uuid) (path : String)
    (e : Engine) : Engine :=
  if e.suspended then e
  else
    match normalizePath P path with
    | .error _ => e
    | .ok canonical =>
      match e.index.byPath canonical with
      | none => e
      | some entry =>
        let (draft, e) := makeDeleteOp cfg entry.fileId entry.type e
        enqueueLocalChange now opId draft e

/-! ### Answers -/

/-- Hand a forced op its answer. -/
def settleWaiter (opId : String) (result : ForcePushOpResult) (e : Engine) : Engine :=
  { e with
    forceWaiters := e.forceWaiters.filter fun id => id ≠ opId
    forceResults := e.forceResults ++ [(opId, result)] }

/-- An op of this device was applied. -/
def handleAck (now : Time) (opId : String) (vaultSeq : ℕ) (conflictId : Option String)
    (e : Engine) : Engine :=
  let outbox :=
    if truthy conflictId then e.outbox.conflict now opId (conflictId.getD "")
    else e.outbox.ack opId
  let e := persistOutbox { e with outbox, index := e.index.setAppliedSeq vaultSeq }
  let e :=
    if e.forceWaiters.contains opId then
      settleWaiter opId
        (if truthy conflictId then
          { ok := false, consumed := true, message := some ("conflict " ++ conflictId.getD "") }
        else { ok := true }) e
    else e
  flushOutbox now e

/-- `promote`: ask for a realtime room, which there is none of for encrypted content. -/
def promote (cfg : ClientConfig) (fileId : String) (e : Engine) : Engine :=
  if cfg.encryptionEnabled then e else e.send (.promote fileId)

/-- An op of this device was refused. -/
def handleReject (cfg : ClientConfig) (now : Time) (opId : Option String) (code : ErrorCode)
    (message : String) (e : Engine) : Engine :=
  if !truthy opId then e
  else
    let opId := opId.getD ""
    if e.forceWaiters.contains opId then
      settleWaiter opId { ok := false, message := some (code.text ++ ": " ++ message) } e
    else
      -- the op stays queued, and the ops that were missed are asked for
      let e :=
        if code = .SEQ_GAP ∨ code = .STALE then
          requestResync { e with outbox := e.outbox.reject now opId message false }
        else if code = .FILE_ACTIVE then
          let e :=
            match e.outbox.entries.find? fun entry => entry.op.opId = opId with
            | none => e
            | some entry => promote cfg entry.op.fileId e
          { e with outbox := e.outbox.reject now opId message false }
        -- given up; the ops after it take its number
        else { e with outbox := e.outbox.removeAndReindex opId }
      flushOutbox now (persistOutbox e)

/-! ### Applying ops -/

/-- `hashPath`: the hash under which the content of a path would be stored. -/
def hashPath (P : Platform) (cfg : ClientConfig) (vault : Vault) (path : String) : Option String :=
  if cfg.encryptionEnabled then
    (readPlaintextBytes P vault path).map fun bytes => contentHash P (cfg.encryptForStorage bytes)
  else if isTextPath path then
    (vault.readBytes path).map fun bytes => contentHashText P (decodeText P bytes)
  else (vault.readBytes path).map (contentHash P)

/-- Whether the target already holds the content that was downloaded before. -/
def alreadyThere (P : Platform) (cfg : ClientConfig) (target hash : String)
    (contentEncoding : Option ContentEncryptionEncoding) (e : Engine) : Bool :=
  e.index.device.downloadedHashes.contains hash && e.vault.contains target &&
    (if contentEncoding.isSome then hashPath P cfg e.vault target = some hash
    else (e.vault.readBytes target).map (contentHash P) = some hash)

/-- Fetch content and write it to the target; the flag is false where it throws. -/
def fetchAndWriteBlob (P : Platform) (cfg : ClientConfig) (target hash : String)
    (contentEncoding : Option ContentEncryptionEncoding) (e : Engine) : Bool × Engine :=
  if alreadyThere P cfg target hash contentEncoding e then (true, e)
  else
    match cfg.fetchContentBytes hash contentEncoding with
    | none => (false, e)
    | some bytes =>
      let vault :=
        if contentEncoding.isSome && isTextPath target then
          e.vault.writeText target (decodeText P bytes)
        else e.vault.writeBytes target bytes
      (true, { e with vault, index := e.index.addDownloaded hash })

/-- The clock as high as the ones an op carries. -/
def observe (op : FileOp) (lamport : ℕ) : ℕ :=
  let lamport := op.pathClock.elim lamport fun clock => max lamport clock.lamport
  op.deleteClock.elim lamport fun clock => max lamport clock.lamport

/-- The entry a content op leaves in the index. -/
def appliedEntry (P : Platform) (now : Time) (op : FileOp) (target hash : String)
    (contentVV : Option VersionVector) (pathClock : Option PathClock) : FileIndexEntry :=
  { fileId := op.fileId
    path := target
    pathNormalized := caseFoldPath P target
    type := op.type
    contentHash := some hash
    size := op.size.getD 0
    appliedContentVV := (contentVV.or op.newContentVV).getD VersionVector.emptyVV
    pathClock
    isDir := false
    mtime := now
    deleted := false }

/-- `applyOp`, with the content vector and path clock the server answered; the
flag is false where it throws. -/
def applyOp (P : Platform) (cfg : ClientConfig) (now : Time) (op : FileOp)
    (contentVV : Option VersionVector) (pathClock : Option PathClock) (e : Engine) :
    Bool × Engine :=
  let entry := e.index.byFileId op.fileId
  let e := { e with lamport := observe op e.lamport }
  if op.kind = .delete then
    let vault :=
      match entry with
      | none => e.vault
      | some entry => if e.vault.contains entry.path then e.vault.trash entry.path else e.vault
    (true, { e with vault, index := e.index.markDeleted op.fileId })
  else if op.kind = .rename then
    match truthy op.newPath, entry with
    | true, some entry =>
      let newPath := op.newPath.getD ""
      -- the folded path stays that of the old path
      let moved := { entry with path := newPath, pathClock := pathClock.or op.pathClock }
      let renamed (vault : Vault) : Bool × Engine :=
        (true, { e with vault, index := e.index.upsertFile moved })
      if entry.path ≠ newPath && e.vault.contains entry.path then
        match e.vault.rename entry.path newPath with
        | none => (false, e)
        | some vault => renamed vault
      else renamed e.vault
    | _, _ => (true, e)
  else if truthy op.contentHash then
    let hash := op.contentHash.getD ""
    let target := (op.newPath.or (entry.map FileIndexEntry.path)).getD ""
    if target = "" then (true, e)
    else
      let decision := shouldApplyConfigPath cfg.configSync target
      if decision.category.isSome && !decision.applies then (true, e)
      else
        let written : Bool × Engine :=
          match op.inlineText with
          | some inlineText => (true, { e with vault := e.vault.writeText target inlineText })
          | none => fetchAndWriteBlob P cfg target hash op.contentEncoding e
        match written with
        | (false, e) => (false, e)
        | (true, e) =>
          let applied := appliedEntry P now op target hash contentVV
            (pathClock.or (entry.bind FileIndexEntry.pathClock))
          (true, { e with index := e.index.upsertFile applied })
  else (true, e)

/-- How a batch of ops ends. -/
inductive BatchEnd
  /-- Every op was applied or had been before. -/
  | done
  /-- An op was missing; the client asked for it. -/
  | gap
  /-- An op could not be applied. -/
  | threw
  deriving DecidableEq, Repr

/-- The loop of `applyOps` over the sorted batch. -/
def applySorted (P : Platform) (cfg : ClientConfig) (now : Time) :
    List AppliedOp → Engine → BatchEnd × Engine
  | [], e => (.done, e)
  | item :: rest, e =>
    if item.vaultSeq ≤ e.index.device.appliedSeq then applySorted P cfg now rest e
    else if item.vaultSeq ≠ e.index.device.appliedSeq + 1 then (.gap, requestResync e)
    else
      match applyOp P cfg now item.op item.resultingClocks.contentVV
          item.resultingClocks.pathClock e with
      | (false, e) => (.threw, e)
      | (true, e) =>
        applySorted P cfg now rest { e with index := e.index.setAppliedSeq item.vaultSeq }

/-- A batch in vault order. -/
def sortedBatch (ops : List AppliedOp) : List AppliedOp :=
  ops.insertionSort fun a b => a.vaultSeq ≤ b.vaultSeq

/-- A batch of ops is applied in the order of the log. -/
def applyOps (P : Platform) (cfg : ClientConfig) (now : Time) (ops : List AppliedOp)
    (e : Engine) : BatchEnd × Engine :=
  applySorted P cfg now (sortedBatch ops) e

/-! ### What applying does -/

section Effects

variable {P : Platform} {cfg : ClientConfig} {now : Time} {op : FileOp}
  {contentVV : Option VersionVector} {pathClock : Option PathClock} {e : Engine}

/-- The path a content op is written to. -/
def contentTarget (op : FileOp) (e : Engine) : String :=
  (op.newPath.or ((e.index.byFileId op.fileId).map FileIndexEntry.path)).getD ""

theorem contains_writeBytes (vault : Vault) (path path' : String) (bytes : Bytes) :
    (vault.writeBytes path bytes).contains path' = (decide (path = path') || vault.contains path')
    := by
  unfold Vault.contains Vault.writeBytes
  rw [Table.get?_set]
  by_cases h : path = path' <;> simp [h]

/-- Fetching and writing content touches the target only. -/
theorem fetchAndWriteBlob_spec (target hash : String)
    (contentEncoding : Option ContentEncryptionEncoding)
    (hfetch : ∀ hash enc, (cfg.fetchContentBytes hash enc).isSome = true) :
    ∃ e', fetchAndWriteBlob P cfg target hash contentEncoding e = (true, e') ∧
      e'.index.files = e.index.files ∧
      e'.index.device.appliedSeq = e.index.device.appliedSeq ∧
      ∀ path, e'.vault.contains path = true → path = target ∨ e.vault.contains path = true := by
  unfold fetchAndWriteBlob
  split
  · exact ⟨e, rfl, rfl, rfl, fun _ h => Or.inr h⟩
  cases hbytes : cfg.fetchContentBytes hash contentEncoding with
  | none =>
    have := hfetch hash contentEncoding
    simp [hbytes] at this
  | some bytes =>
    refine ⟨_, rfl, rfl, rfl, ?_⟩
    intro path hpath
    dsimp only at hpath
    split at hpath
    · rw [Vault.writeText, contains_writeBytes, Bool.or_eq_true, decide_eq_true_eq] at hpath
      exact hpath.imp_left Eq.symm
    · rw [contains_writeBytes, Bool.or_eq_true, decide_eq_true_eq] at hpath
      exact hpath.imp_left Eq.symm

theorem applies_of_common (h : ∀ c, cfg.configSync c = .common) (path : String) :
    ((shouldApplyConfigPath cfg.configSync path).category.isSome &&
      !(shouldApplyConfigPath cfg.configSync path).applies) = false := by
  unfold shouldApplyConfigPath
  cases categorizeConfigPath path with
  | none => rfl
  | some c => simp [h c]

/-- A content op with a hash and a target is written and indexed. -/
theorem applyOp_content (hkind : op.kind.isContent = true) (hhash : truthy op.contentHash = true)
    (htarget : contentTarget op e ≠ "") (hcommon : ∀ c, cfg.configSync c = .common)
    (hfetch : ∀ hash enc, (cfg.fetchContentBytes hash enc).isSome = true) :
    ∃ e', applyOp P cfg now op contentVV pathClock e = (true, e') ∧
      e'.index.files = e.index.files.set
        (appliedEntry P now op (contentTarget op e) (op.contentHash.getD "") contentVV
          (pathClock.or ((e.index.byFileId op.fileId).bind FileIndexEntry.pathClock))) ∧
      e'.index.device.appliedSeq = e.index.device.appliedSeq ∧
      ∀ path, e'.vault.contains path = true →
        path = contentTarget op e ∨ e.vault.contains path = true := by
  have hdelete : op.kind ≠ .delete := fun h => by simp [h, OpKind.isContent] at hkind
  have hrename : op.kind ≠ .rename := fun h => by simp [h, OpKind.isContent] at hkind
  have happlies := applies_of_common hcommon (contentTarget op e)
  unfold applyOp
  simp only [hdelete, if_false, hrename, hhash, if_true]
  unfold contentTarget at htarget happlies ⊢
  simp only [htarget, if_false, happlies, Bool.false_eq_true]
  cases htext : op.inlineText with
  | some inlineText =>
    refine ⟨_, rfl, rfl, rfl, ?_⟩
    intro path hpath
    simp only [Vault.writeText, contains_writeBytes, Bool.or_eq_true, decide_eq_true_eq] at hpath
    exact hpath.imp_left Eq.symm
  | none =>
    obtain ⟨e', hwrite, hfiles, hseq, hvault⟩ :=
      fetchAndWriteBlob_spec (P := P) (e := { e with lamport := observe op e.lamport })
        ((op.newPath.or ((e.index.byFileId op.fileId).map FileIndexEntry.path)).getD "")
        (op.contentHash.getD "") op.contentEncoding hfetch
    simp only [hwrite]
    exact ⟨_, rfl, by simp only [LocalIndex.upsertFile, hfiles], hseq, hvault⟩

/-- A content op without a hash or a target leaves the index and the vault alone. -/
theorem applyOp_skip (hkind : op.kind.isContent = true)
    (hskip : truthy op.contentHash = false ∨ contentTarget op e = "") :
    applyOp P cfg now op contentVV pathClock e
      = (true, { e with lamport := observe op e.lamport }) := by
  have hdelete : op.kind ≠ .delete := fun h => by simp [h, OpKind.isContent] at hkind
  have hrename : op.kind ≠ .rename := fun h => by simp [h, OpKind.isContent] at hkind
  unfold applyOp
  rcases hskip with hhash | htarget
  · simp [hdelete, hrename, hhash]
  · unfold contentTarget at htarget
    simp [hdelete, hrename, htarget]

/-- A delete marks the entry. -/
theorem applyOp_delete (hkind : op.kind = .delete) :
    ∃ e', applyOp P cfg now op contentVV pathClock e = (true, e') ∧
      e'.index = e.index.markDeleted op.fileId := by
  unfold applyOp
  simp only [hkind, if_true]
  exact ⟨_, rfl, rfl⟩

/-- A rename to the path the file has leaves the vault alone. -/
theorem applyOp_rename_same {entry : FileIndexEntry} (hkind : op.kind = .rename)
    (hentry : e.index.byFileId op.fileId = some entry) (hpath : truthy op.newPath = true)
    (hsame : op.newPath = some entry.path) :
    ∃ e' entry', applyOp P cfg now op contentVV pathClock e = (true, e') ∧
      entry' = { entry with pathClock := pathClock.or op.pathClock } ∧
      e'.index = e.index.upsertFile entry' ∧ e'.vault = e.vault := by
  unfold applyOp
  simp only [hkind, reduceCtorEq, if_false, if_true, hpath, hentry]
  simp only [hsame, Option.getD_some, ne_eq, not_true, decide_false, Bool.false_and,
    Bool.false_eq_true, if_false]
  exact ⟨_, _, rfl, rfl, rfl, rfl⟩

/-- A rename to a path that is free on disk moves the file. -/
theorem applyOp_rename_move {entry : FileIndexEntry} {newPath : String}
    (hkind : op.kind = .rename) (hentry : e.index.byFileId op.fileId = some entry)
    (hnew : op.newPath = some newPath) (hne : newPath ≠ "")
    (hfree : e.vault.contains newPath = false) :
    ∃ e' entry', applyOp P cfg now op contentVV pathClock e = (true, e') ∧
      entry' = { entry with path := newPath, pathClock := pathClock.or op.pathClock } ∧
      e'.index = e.index.upsertFile entry' ∧
      ∀ path, e'.vault.contains path = true →
        path = newPath ∨ (path ≠ entry.path ∧ e.vault.contains path = true) ∨
          (e.vault.contains entry.path = false ∧ e.vault.contains path = true) := by
  have hpath : truthy op.newPath = true := by simp [hnew, hne]
  unfold applyOp
  simp only [hkind, reduceCtorEq, if_false, if_true, hpath, hentry]
  simp only [hnew, Option.getD_some]
  split
  · next hmove =>
    rw [Bool.and_eq_true] at hmove
    have hin : e.vault.contains entry.path = true := hmove.2
    obtain ⟨bytes, hbytes⟩ : ∃ bytes, e.vault.readBytes entry.path = some bytes := by
      unfold Vault.contains at hin
      obtain ⟨row, hrow⟩ := Option.isSome_iff_exists.mp hin
      exact ⟨row.2, by simp [Vault.readBytes, hrow]⟩
    simp only [Vault.rename, hbytes, hfree, Bool.false_eq_true, if_false]
    refine ⟨_, _, rfl, rfl, rfl, ?_⟩
    intro path hp
    rw [contains_writeBytes, Bool.or_eq_true, decide_eq_true_eq] at hp
    rcases hp with hp | hp
    · exact Or.inl hp.symm
    · unfold Vault.contains at hp
      rw [Table.get?_erase] at hp
      split at hp
      · simp at hp
      · next hne => exact Or.inr (Or.inl ⟨hne, hp⟩)
  · next hstay =>
    refine ⟨_, _, rfl, rfl, rfl, ?_⟩
    intro path hp
    by_cases hin : e.vault.contains entry.path = true
    · -- the file is there, so its path was the new one already
      have hsame : entry.path = newPath := by
        by_contra hne'
        exact hstay (by simp [hne', hin])
      simp [← hsame, hin] at hfree
    · exact Or.inr (Or.inr ⟨by simpa using hin, hp⟩)

end Effects

end Engine

/-! ### A client to compute with -/

/-- A client that can fetch the sample texts by their hashes. -/
def sampleConfig : ClientConfig where
  deviceId := "d3"
  vaultId := "v"
  fetchContentBytes hash _ := some
    ((sampleDigests.find? fun entry => contentHashText samplePlatform entry.1 = hash).elim []
      fun entry => encodeText entry.1)

end ObsidianSync
