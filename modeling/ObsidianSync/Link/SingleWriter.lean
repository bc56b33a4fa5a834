import ObsidianSync.Link.System
import ObsidianSync.Server.Acceptance

/-!
# A single writer

The saves of one path by the only device that writes.  Its own acks do not reach
the index, so every save takes the file id and the base vector that the index had
at the start.  For a path the index knows this does no harm, because the server
lets an equal vector overwrite; for one it does not know, every save makes a new
file.

## Main definitions

* `SavesArrive` — what should hold whenever the outbox has drained.
* `PathInSync` — the index knows the path as the server does, or neither does.
* `WriterInv` — what holds between the client, the messages and the server.

## Main results

* `writerInv_save`, `writerInv_serverReceive`, `writerInv_clientReceive` — the steps
  keep the invariant.
* `savesArrive_of_pathInSync` — the saves arrive in every state of a run.
-/

namespace ObsidianSync

open Engine

/-! ### The property -/

/-- The hash of what was saved. -/
def savedHash (P : Platform) (cfg : ClientConfig) (saved : String × Bytes) : Option String :=
  (buildContentPayload P cfg (Vault.writeBytes Table.empty saved.1 saved.2) saved.1).map
    ContentPayload.contentHash

/-- A live file of the vault at the path. -/
def LiveAt (P : Platform) (vaultId path : String) (file : StoredFile) : Prop :=
  LiveFile vaultId file ∧ file.pathNormalized = P.toLowerCase path

instance (P : Platform) (vaultId path : String) (file : StoredFile) :
    Decidable (LiveAt P vaultId path file) :=
  inferInstanceAs (Decidable (_ ∧ _))

/-- The answer to an op that lost to another. -/
def Lost : OpApplyResult → Prop
  | .ack result => result.conflictId ≠ none
  | .reject result => result.code = .STALE

instance : (result : OpApplyResult) → Decidable (Lost result)
  | .ack result => inferInstanceAs (Decidable (result.conflictId ≠ none))
  | .reject result => inferInstanceAs (Decidable (result.code = .STALE))

/-- No save has lost; and once the outbox has drained, the server has exactly one
live file at the path, with the content of the last save. -/
def SavesArrive (P : Platform) (cfg : ClientConfig) (path : String) (l : Link) : Prop :=
  (∀ result ∈ l.answers, ¬ Lost result) ∧
    (l.engine.outbox.entries = [] → ∀ saved ∈ l.saves.getLast?,
      ∃ file ∈ l.store.files.rows, LiveAt P cfg.vaultId path file ∧
        (∀ other ∈ l.store.files.rows, LiveAt P cfg.vaultId path other → other = file) ∧
        file.contentHash = savedHash P cfg saved)

instance (P : Platform) (cfg : ClientConfig) (path : String) (l : Link) :
    Decidable (SavesArrive P cfg path l) := by
  unfold SavesArrive
  infer_instance

/-! ### The condition -/

/-- The entry the index has for the path is that of the only live file the server
has there, which the entry's next vector dominates; or the index and the server
have none and this is the first save, under a new id. -/
def PathInSync (P : Platform) (cfg : ClientConfig) (path : String) (fileId : Uuid) (l : Link) :
    Prop :=
  match l.engine.index.byPath path with
  | some entry =>
    entry.fileId ≠ "" ∧
      (∃ file ∈ l.store.getFile cfg.vaultId entry.fileId, LiveAt P cfg.vaultId path file ∧
        VersionVector.dominates (VersionVector.bump entry.appliedContentVV cfg.deviceId)
          file.contentVV = true ∧ truthy file.conflictId = false) ∧
      ∀ other ∈ l.store.files.rows, LiveAt P cfg.vaultId path other → other.fileId = entry.fileId
  | none =>
    l.saves = [] ∧ l.engine.index.byFileId fileId.1 = none ∧
      l.store.getFile cfg.vaultId fileId.1 = none ∧
      ∀ other ∈ l.store.files.rows, ¬ LiveAt P cfg.vaultId path other

instance (P : Platform) (cfg : ClientConfig) (path : String) (fileId : Uuid) (l : Link) :
    Decidable (PathInSync P cfg path fileId l) := by
  unfold PathInSync
  split <;> infer_instance

/-- The id has not been given to an op before. -/
def FreshOpId (opId : Uuid) (l : Link) : Prop :=
  l.store.getOpById opId.1 = none ∧ ∀ row ∈ l.engine.outbox.map.rows, row.op.opId ≠ opId.1

instance (opId : Uuid) (l : Link) : Decidable (FreshOpId opId l) :=
  inferInstanceAs (Decidable (_ ∧ _))

/-- The server may take the op: its blob was uploaded, and no room is open on the
file. -/
def ServerTakes (cfg : ClientConfig) (now : Time) (l : Link) : ClientMessage → Prop
  | .fileOp op => Link.mayUseContent cfg.vaultId op l = true ∧ BlobReady op l.store ∧
      ∀ file ∈ opRow op l.store, isActive now file = false
  | _ => True

instance (cfg : ClientConfig) (now : Time) (l : Link) :
    (message : ClientMessage) → Decidable (ServerTakes cfg now l message)
  | .fileOp op => inferInstanceAs (Decidable (Link.mayUseContent cfg.vaultId op l = true ∧
      BlobReady op l.store ∧ ∀ file ∈ opRow op l.store, isActive now file = false))
  | .hello .. | .getOps _ | .promote _ => isTrue trivial

/-- The events of a single writer of the path, with each save in sync. -/
def WriterStep (P : Platform) (cfg : ClientConfig) (path : String) (l : Link) : LinkEvent → Prop
  | .save _ opId fileId path' _ => path' = path ∧ FreshOpId opId l ∧
      isSafeInteger l.engine.outbox.nextDeviceSeq = true ∧ PathInSync P cfg path fileId l
  | .serverReceive now _ _ => ∀ message ∈ l.up.head?, ServerTakes cfg now l message
  | .clientReceive _ | .upload .. => True
  | _ => False

instance (P : Platform) (cfg : ClientConfig) (path : String) (l : Link) :
    (event : LinkEvent) → Decidable (WriterStep P cfg path l event)
  | .save _ opId fileId path' _ => inferInstanceAs (Decidable (path' = path ∧ FreshOpId opId l ∧
      isSafeInteger l.engine.outbox.nextDeviceSeq = true ∧ PathInSync P cfg path fileId l))
  | .serverReceive now _ _ =>
    inferInstanceAs (Decidable (∀ message ∈ l.up.head?, ServerTakes cfg now l message))
  | .clientReceive _ | .upload .. => isTrue trivial
  | .rename .. | .delete .. | .resume .. | .remote _ | .broadcast .. | .connect | .disconnect =>
    isFalse id

/-- A canonical path that the device syncs, under ids that validate. -/
structure WriterSetting (P : Platform) (cfg : ClientConfig) (path : String) : Prop where
  deviceId : cfg.deviceId ≠ ""
  vaultId : cfg.vaultId ≠ ""
  notRoom : ∀ fileId, cfg.deviceId ≠ "collab:" ++ fileId
  canonical : normalizePath P path = .ok path
  synced : cfg.ignores path = false

/-- A connected device that may write, with nothing under way. -/
structure WriterReady (cfg : ClientConfig) (userId : String) (l : Link) : Prop where
  connected : l.socketOpen = true ∧ l.joined = true
  silent : l.up = [] ∧ l.down = [] ∧ l.engine.outgoing = [] ∧ l.engine.forceWaiters = []
  past : l.saves = [] ∧ l.answers = []
  drained : l.engine.outbox.map.rows = []
  deviceId : l.engine.outbox.deviceId = cfg.deviceId
  device : ∃ device ∈ l.store.getDevice cfg.deviceId, device.vaultId = cfg.vaultId ∧
    device.revoked = false ∧ l.engine.outbox.nextDeviceSeq = device.lastDeviceSeq + 1
  canWrite : (l.store.getRole cfg.vaultId userId).elim false Role.canWrite = true

/-! ### The invariant -/

/-- An op of the device on the path. -/
structure OwnOp (P : Platform) (cfg : ClientConfig) (path : String) (op : FileOp) : Prop where
  content : WellFormedContent P op path
  deviceId : op.deviceId = cfg.deviceId
  vaultId : op.vaultId = cfg.vaultId

/-- The op is in the log, acknowledged without a conflict. -/
def Acknowledged (s : Store) (opId : String) : Prop :=
  ∃ logged result, s.getOpById opId = some logged ∧ logged.result = .ack result ∧
    result.opId = opId ∧ result.conflictId = none

section Invariant

variable (P : Platform) (cfg : ClientConfig) (userId path : String)

/-- A message to the server: an op that is acknowledged, or the first pending one. -/
def InFlight (s : Store) (pending : List FileOp) (message : ClientMessage) : Prop :=
  ∃ op, message = .fileOp op ∧ OwnOp P cfg path op ∧
    (Acknowledged s op.opId ∨ pending.head? = some op)

/-- The outbox has the pending ops and acknowledged ones; only the first pending op
has been sent. -/
structure Sending (s : Store) (pending : List FileOp) (e : Engine) : Prop where
  deviceId : e.outbox.deviceId = cfg.deviceId
  rows : ∀ row ∈ e.outbox.map.rows, OwnOp P cfg path row.op ∧
    (Acknowledged s row.op.opId ∨ row.op ∈ pending ∧
      (row.status = .queued ∨ pending.head? = some row.op))
  kept : ∀ op ∈ pending, ∃ row ∈ e.outbox.map.rows, row.op = op ∧
    (row.status = .queued ∨ row.status = .inflight)
  outgoing : ∀ message ∈ e.outgoing, InFlight P cfg path s pending message
  waiters : e.forceWaiters = []

/-- The pending ops are the ones after the last the server has from the device. -/
structure Numbered (pending : List FileOp) (last next : ℕ) : Prop where
  seqs : pending.map FileOp.deviceSeq = List.range' (last + 1) pending.length
  next : next = last + 1 + pending.length

/-- The pending ops overwrite one file, and the last of them, or the row, has what
was saved last. -/
structure WriterContent (index : LocalIndex) (l : Link) (pending : List FileOp)
    (fileId : String) (vv : VersionVector) : Prop where
  ops : ∀ op ∈ pending, op.fileId = fileId ∧ op.newContentVV = some vv ∧
    (op.kind = .create ∨ op.kind = .update)
  row : ∀ file, l.store.getFile cfg.vaultId fileId = some file →
    LiveAt P cfg.vaultId path file ∧ VersionVector.dominates vv file.contentVV = true ∧
      truthy file.conflictId = false
  missing : l.store.getFile cfg.vaultId fileId = none →
    index.byPath path = none ∧ ∃ op, pending = [op] ∧ op.kind = .create
  alone : ∀ other ∈ l.store.files.rows, LiveAt P cfg.vaultId path other → other.fileId = fileId
  last : ∃ saved, l.saves.getLast? = some saved ∧
    match pending.getLast? with
    | some op => op.contentHash = savedHash P cfg saved
    | none => ∀ file, l.store.getFile cfg.vaultId fileId = some file →
        file.contentHash = savedHash P cfg saved
  entry : ∀ entry, index.byPath path = some entry →
    fileId = entry.fileId ∧ vv = VersionVector.bump entry.appliedContentVV cfg.deviceId

/-- What holds in a run of a single writer whose index has the files of `index`. -/
structure WriterInv (index : LocalIndex) (l : Link) (pending : List FileOp) : Prop where
  connected : l.socketOpen = true ∧ l.joined = true
  files : l.engine.index.files = index.files
  idle : l.engine.outgoing = []
  device : ∃ device, l.store.getDevice cfg.deviceId = some device ∧
    device.vaultId = cfg.vaultId ∧ device.revoked = false ∧
    Numbered pending device.lastDeviceSeq l.engine.outbox.nextDeviceSeq
  canWrite : (l.store.getRole cfg.vaultId userId).elim false Role.canWrite = true
  fresh : ∀ op ∈ pending, OwnOp P cfg path op ∧ l.store.getOpById op.opId = none
  sending : Sending P cfg path l.store pending l.engine
  up : ∀ message ∈ l.up, InFlight P cfg path l.store pending message
  down : ∀ message ∈ l.down, ∃ opId seq clocks, message = .opAck opId seq clocks none ∧
    Acknowledged l.store opId
  answers : ∀ result ∈ l.answers, ∃ ack, result = .ack ack ∧ ack.conflictId = none
  content : (l.saves = [] ∧ pending = []) ∨
    ∃ fileId vv, WriterContent P cfg path index l pending fileId vv

end Invariant

/-! ### Sending -/

section Sending

variable {P : Platform} {cfg : ClientConfig} {userId path : String} {s : Store}
  {pending : List FileOp} {e : Engine}

/-- The first pending op is the one with the lowest sequence. -/
theorem Numbered.head_of_le {last next : ℕ} (h : Numbered pending last next) {op : FileOp}
    (hop : op ∈ pending) (hle : ∀ op' ∈ pending, op.deviceSeq ≤ op'.deviceSeq) :
    pending.head? = some op := by
  cases pending with
  | nil => simp at hop
  | cons first rest =>
    have hseqs := h.seqs
    rw [List.map_cons, List.length_cons, List.range'_succ, List.cons.injEq] at hseqs
    rcases List.mem_cons.mp hop with rfl | hop
    · rfl
    · -- the others come later
      have hmem : op.deviceSeq ∈ rest.map FileOp.deviceSeq := List.mem_map_of_mem hop
      rw [hseqs.2, List.mem_range'_1] at hmem
      have := hle first (List.mem_cons_self ..)
      omega

theorem Numbered.tail {last next : ℕ} {op : FileOp} {rest : List FileOp}
    (h : Numbered (op :: rest) last next) :
    op.deviceSeq = last + 1 ∧ Numbered rest (last + 1) next ∧ op ∉ rest := by
  have hseqs := h.seqs
  rw [List.map_cons, List.length_cons, List.range'_succ, List.cons.injEq] at hseqs
  refine ⟨hseqs.1, ⟨hseqs.2, ?_⟩, fun hop => ?_⟩
  · have := h.next
    rw [List.length_cons] at this
    omega
  · have hmem : op.deviceSeq ∈ rest.map FileOp.deviceSeq := List.mem_map_of_mem hop
    rw [hseqs.2, List.mem_range'_1] at hmem
    omega

theorem Numbered.append {last next : ℕ} (h : Numbered pending last next) {op : FileOp}
    (hseq : op.deviceSeq = next) : Numbered (pending ++ [op]) last (next + 1) := by
  constructor
  · rw [List.map_append, h.seqs, List.length_append, List.length_singleton, List.range'_concat,
      List.map_singleton, hseq, h.next, Nat.one_mul]
  · rw [h.next, List.length_append, List.length_singleton, Nat.add_assoc]

/-- The entry that is sent is acknowledged or the first pending one. -/
theorem inFlight_of_nextToSend {last next : ℕ} (h : Sending P cfg path s pending e)
    (hnum : Numbered pending last next) {entry : OutboxEntry} (hnext : e.nextToSend = some entry) :
    OwnOp P cfg path entry.op ∧
      (Acknowledged s entry.op.opId ∨ pending.head? = some entry.op) := by
  obtain ⟨hmem, hstatus⟩ := nextToSend_spec hnext
  obtain ⟨hown, hrow⟩ := h.rows entry hmem
  refine ⟨hown, hrow.imp_right ?_⟩
  rintro ⟨hpending, hqueued | hhead⟩
  · rcases hstatus with hinflight | ⟨-, hnone, hlowest⟩
    · simp [hqueued] at hinflight
    · refine hnum.head_of_le hpending fun op' hop' => ?_
      obtain ⟨row, hrow, rfl, hq | hi⟩ := h.kept op' hop'
      · exact hlowest row hrow hq
      · exact absurd hi (hnone row hrow)
  · exact hhead

/-- A flush keeps the outbox in order. -/
theorem sending_flushOutbox {last next : ℕ} (h : Sending P cfg path s pending e)
    (hnum : Numbered pending last next) (now : Time) :
    Sending P cfg path s pending (flushOutbox now e) ∧
      (flushOutbox now e).outbox.nextDeviceSeq = e.outbox.nextDeviceSeq := by
  rcases flushOutbox_cases now e with hsame | ⟨entry, hnext, ⟨-, hsend⟩ | hmark⟩
  · rw [hsame]
    exact ⟨h, rfl⟩
  · obtain ⟨hown, hfirst⟩ := inFlight_of_nextToSend h hnum hnext
    rw [hsend]
    refine ⟨⟨h.deviceId, h.rows, h.kept, fun message hm => ?_, h.waiters⟩, rfl⟩
    rcases List.mem_append.mp hm with hm | hm
    · exact h.outgoing message hm
    · exact ⟨entry.op, by simpa using hm, hown, hfirst⟩
  · obtain ⟨hown, hfirst⟩ := inFlight_of_nextToSend h hnum hnext
    have hmem := (nextToSend_spec hnext).1
    have hget : e.outbox.map.get? entry.op.opId = some entry := Table.get?_key hmem
    obtain ⟨marked, hop, hinflight, hmark'⟩ : ∃ marked : OutboxEntry, marked.op = entry.op ∧
        marked.status = .inflight ∧ e.outbox.markInflight now entry.op.opId
          = { e.outbox with map := e.outbox.map.set marked } := by
      refine ⟨{ entry with
        status := .inflight, attempts := entry.attempts + 1, updatedAt := now }, rfl, rfl, ?_⟩
      rw [OutboxManager.markInflight, OutboxManager.modify, hget]
    have hkey : marked.opId = entry.op.opId := congrArg FileOp.opId hop
    rw [hmark, hmark']
    refine ⟨⟨h.deviceId, ?_, ?_, fun message hm => ?_, h.waiters⟩, rfl⟩
    · intro row hrow
      rcases Table.mem_set_iff.mp hrow with rfl | ⟨hrow, -⟩
      · rw [hop]
        refine ⟨hown, hfirst.imp_right fun hhead => ⟨List.mem_of_mem_head? hhead, Or.inr hhead⟩⟩
      · exact h.rows row hrow
    · intro op hop'
      obtain ⟨row, hrow, rfl, hstatus⟩ := h.kept op hop'
      by_cases hsame : row.opId = marked.opId
      · have : row = entry := Table.eq_of_key_eq hrow hmem (hsame.trans hkey)
        exact ⟨marked, Table.mem_set_iff.mpr (Or.inl rfl), by rw [hop, this], Or.inr hinflight⟩
      · exact ⟨row, Table.mem_set_iff.mpr (Or.inr ⟨hrow, hsame⟩), rfl, hstatus⟩
    · rcases List.mem_append.mp hm with hm | hm
      · exact h.outgoing message hm
      · exact ⟨entry.op, by simpa using hm, hown, hfirst⟩

end Sending

/-! ### A save -/

section Save

variable {P : Platform} {cfg : ClientConfig} {userId path : String} {index : LocalIndex}
  {l : Link} {pending : List FileOp}

/-- The client goes on as `e`. -/
theorem writerInv_withEngine {e : Engine} (hconnected : l.socketOpen = true ∧ l.joined = true)
    (hfiles : e.index.files = index.files)
    (hdevice : ∃ device, l.store.getDevice cfg.deviceId = some device ∧
      device.vaultId = cfg.vaultId ∧ device.revoked = false ∧
      Numbered pending device.lastDeviceSeq e.outbox.nextDeviceSeq)
    (hwrite : (l.store.getRole cfg.vaultId userId).elim false Role.canWrite = true)
    (hfresh : ∀ op ∈ pending, OwnOp P cfg path op ∧ l.store.getOpById op.opId = none)
    (hsending : Sending P cfg path l.store pending e)
    (hup : ∀ message ∈ l.up, InFlight P cfg path l.store pending message)
    (hdown : ∀ message ∈ l.down, ∃ opId seq clocks, message = .opAck opId seq clocks none ∧
      Acknowledged l.store opId)
    (hanswers : ∀ result ∈ l.answers, ∃ ack, result = .ack ack ∧ ack.conflictId = none)
    (hcontent : (l.saves = [] ∧ pending = []) ∨
      ∃ fileId vv, WriterContent P cfg path index l pending fileId vv) :
    WriterInv P cfg userId path index (l.withEngine e) pending := by
  rw [Link.withEngine, if_pos hconnected.1]
  refine ⟨hconnected, hfiles, rfl, hdevice, hwrite, hfresh,
    ⟨hsending.deviceId, hsending.rows, hsending.kept, by simp, hsending.waiters⟩,
    fun message hm => ?_, hdown, hanswers, ?_⟩
  · rcases List.mem_append.mp hm with hm | hm
    · exact hup message hm
    · exact hsending.outgoing message hm
  · rcases hcontent with hnone | ⟨fileId, vv, hc⟩
    · exact Or.inl hnone
    · exact Or.inr ⟨fileId, vv, hc.ops, hc.row, hc.missing, hc.alone, hc.last, hc.entry⟩

/-- The content of a written file, as an op carries it. -/
theorem buildContentPayload_written (P : Platform) (cfg : ClientConfig) (vault : Vault)
    (path : String) (bytes : Bytes) :
    ∃ payload, buildContentPayload P cfg (vault.writeBytes path bytes) path = some payload ∧
      savedHash P cfg (path, bytes) = some payload.contentHash ∧
      isValidContentHash payload.contentHash = true ∧
      (∀ text, payload.inlineText = some text → payload.contentHash = contentHashText P text ∧
        payload.contentEncoding = none ∧ payload.blobRef = none) ∧
      (payload.contentEncoding.isSome = true → truthy payload.blobRef = true) := by
  have hvalid := fun data => isValidContentHash_contentHash P data
  have hblob : ∀ data, truthy (some (contentHash P data)) = true := fun data => by
    simpa using ne_empty_of_isValidContentHash (hvalid data)
  have hread : ∀ vault : Vault, (vault.writeBytes path bytes).readBytes path = some bytes :=
    fun vault => by rw [Vault.readBytes_writeBytes, if_pos rfl]
  unfold savedHash buildContentPayload readPlaintextBytes
  cases cfg.encryptionEnabled with
  | true =>
    cases isTextPath path with
    | true =>
      simp only [if_true, hread, Option.map_some]
      exact ⟨_, rfl, rfl, hvalid _, by simp, fun _ => hblob _⟩
    | false =>
      simp only [if_true, Bool.false_eq_true, if_false, hread, Option.map_some]
      exact ⟨_, rfl, rfl, hvalid _, by simp, fun _ => hblob _⟩
  | false =>
    cases isTextPath path with
    | true =>
      simp only [Bool.false_eq_true, if_false, if_true, hread, Option.map_some]
      exact ⟨_, rfl, rfl, hvalid _, by simp, by simp⟩
    | false =>
      simp only [Bool.false_eq_true, if_false, hread, Option.map_some]
      exact ⟨_, rfl, rfl, hvalid _, by simp, by simp⟩

/-- The op of a save: it is numbered next, and carries the id and the next vector of
the entry at the path. -/
theorem syncPath_written (hset : WriterSetting P cfg path) (now : Time) (opId fileId : Uuid)
    (bytes : Bytes) (e : Engine) (hdevice : e.outbox.deviceId = cfg.deviceId)
    (hseq : 1 ≤ e.outbox.nextDeviceSeq) (hsafe : isSafeInteger e.outbox.nextDeviceSeq = true)
    (hid : ∀ entry, e.index.byPath path = some entry → entry.fileId ≠ "") :
    ∃ draft op, syncPath P cfg now opId fileId path
          { e with vault := e.vault.writeBytes path bytes }
        = enqueueLocalChange now opId draft { e with vault := e.vault.writeBytes path bytes } ∧
      op = e.outbox.opOfDraft opId draft ∧ op.opId = opId.1 ∧ OwnOp P cfg path op ∧
      op.deviceSeq = e.outbox.nextDeviceSeq ∧ op.contentHash = savedHash P cfg (path, bytes) ∧
      op.fileId = ((e.index.byPath path).map FileIndexEntry.fileId).getD fileId.1 ∧
      op.newContentVV = some (VersionVector.bump (appliedVV (e.index.byFileId op.fileId))
        cfg.deviceId) ∧
      op.kind = if (e.index.byFileId op.fileId).isSome then .update else .create := by
  obtain ⟨payload, hbuild, hsaved, hvalid, htext, hblob⟩ :=
    buildContentPayload_written P cfg e.vault path bytes
  have hin : (e.vault.writeBytes path bytes).contains path = true := by
    rw [contains_writeBytes]
    simp
  unfold syncPath makeContentOp
  simp only [hset.synced, hin, Bool.not_true, Bool.or_self, Bool.false_eq_true, if_false, hbuild]
  refine ⟨_, _, rfl, rfl, rfl, ⟨?_, hdevice, rfl⟩, rfl, hsaved.symm, rfl, rfl, rfl⟩
  refine ⟨opId.2, hdevice ▸ hset.deviceId, hset.vaultId, ?_, hseq, hsafe, rfl, hset.canonical,
    ⟨_, rfl, hvalid⟩, fun text ht => ?_, hblob⟩
  · show ((e.index.byPath path).map FileIndexEntry.fileId).getD fileId.1 ≠ ""
    cases hentry : e.index.byPath path with
    | none => exact fileId.2
    | some entry => exact hid entry hentry
  · obtain ⟨hhash, henc, href⟩ := htext text ht
    exact ⟨congrArg some hhash, henc, href⟩

/-- A new op joins the outbox. -/
theorem sending_enqueue {s : Store} {e : Engine} (h : Sending P cfg path s pending e)
    (now : Time) {opId : Uuid} {draft : FileOpDraft} {op : FileOp}
    (hop : op = e.outbox.opOfDraft opId draft) (hown : OwnOp P cfg path op)
    (hfresh : ∀ row ∈ e.outbox.map.rows, row.op.opId ≠ op.opId) (hidle : e.outgoing = []) :
    Sending P cfg path s (pending ++ [op])
      (persistOutbox { e with outbox := (e.outbox.enqueue now opId draft).2 }) := by
  subst hop
  refine ⟨h.deviceId, fun row hrow => ?_, fun op' hop' => ?_, ?_, h.waiters⟩
  · rcases Table.mem_set_iff.mp hrow with rfl | ⟨hrow, -⟩
    · exact ⟨hown, Or.inr ⟨List.mem_append_right _ (List.mem_singleton_self _), Or.inl rfl⟩⟩
    · obtain ⟨hown', hrow'⟩ := h.rows row hrow
      refine ⟨hown', hrow'.imp_right fun ⟨hmem, hstatus⟩ =>
        ⟨List.mem_append_left _ hmem, hstatus.imp_right fun hhead => ?_⟩⟩
      rw [List.head?_append, hhead]
      rfl
  · rcases List.mem_append.mp hop' with hop' | hop'
    · obtain ⟨row, hrow, rfl, hstatus⟩ := h.kept op' hop'
      exact ⟨row, Table.mem_set_iff.mpr (Or.inr ⟨hrow, hfresh row hrow⟩), rfl, hstatus⟩
    · exact ⟨_, Table.mem_set_iff.mpr (Or.inl rfl), (List.mem_singleton.mp hop').symm, Or.inl rfl⟩
  · intro message hm
    have hm' : message ∈ e.outgoing := hm
    simp [hidle] at hm'

theorem byPath_congr {index index' : LocalIndex} (h : index'.files = index.files) (path : String) :
    index'.byPath path = index.byPath path := by
  rw [LocalIndex.byPath, h, LocalIndex.byPath]

theorem byFileId_of_byPath {index : LocalIndex} {path : String} {entry : FileIndexEntry}
    (h : index.byPath path = some entry) : index.byFileId entry.fileId = some entry :=
  Table.get?_key (List.mem_of_find?_eq_some h)

/-- The content after a save in sync. -/
theorem writerContent_save (h : WriterInv P cfg userId path index l pending) {fileId : Uuid}
    (hsync : PathInSync P cfg path fileId l) {bytes : Bytes} {op : FileOp}
    (hhash : op.contentHash = savedHash P cfg (path, bytes))
    (hid : op.fileId = ((l.engine.index.byPath path).map FileIndexEntry.fileId).getD fileId.1)
    (hvv : op.newContentVV = some (VersionVector.bump
      (appliedVV (l.engine.index.byFileId op.fileId)) cfg.deviceId))
    (hkind : op.kind = if (l.engine.index.byFileId op.fileId).isSome then .update else .create) :
    ∃ vv, WriterContent P cfg path index { l with saves := l.saves ++ [(path, bytes)] }
      (pending ++ [op]) op.fileId vv := by
  have hlast : ∃ saved, (l.saves ++ [(path, bytes)]).getLast? = some saved ∧
      match (pending ++ [op]).getLast? with
      | some op => op.contentHash = savedHash P cfg saved
      | none => ∀ file, l.store.getFile cfg.vaultId op.fileId = some file →
          file.contentHash = savedHash P cfg saved :=
    ⟨(path, bytes), List.getLast?_concat, by rw [List.getLast?_concat]; exact hhash⟩
  have hkinds : op.kind = .create ∨ op.kind = .update := by
    rw [hkind]
    split <;> simp
  have hindex := byPath_congr h.files path
  -- by whether the index has the path: the save overwrites its file, or creates one
  unfold PathInSync at hsync
  cases hentry : l.engine.index.byPath path with
  | some entry =>
    simp only [hentry] at hsync
    obtain ⟨-, ⟨file, hfile, hlive, hdom, hfrozen⟩, halone⟩ := hsync
    rw [hentry, Option.map_some, Option.getD_some] at hid
    rw [hid, byFileId_of_byPath hentry] at hvv
    -- the pending ops have the file and the vector of the entry, as this one
    have hold : ∀ op' ∈ pending, op'.fileId = entry.fileId ∧
        op'.newContentVV = some (VersionVector.bump entry.appliedContentVV cfg.deviceId) ∧
        (op'.kind = .create ∨ op'.kind = .update) := by
      rcases h.content with ⟨-, hnone⟩ | ⟨fileId', vv, hc⟩
      · simp [hnone]
      · obtain ⟨rfl, rfl⟩ := hc.entry entry (by rw [← hindex, hentry])
        exact hc.ops
    refine ⟨VersionVector.bump entry.appliedContentVV cfg.deviceId, ?_, ?_, ?_, ?_, hlast, ?_⟩
    · intro op' hop'
      rcases List.mem_append.mp hop' with hop' | hop'
      · rw [hid]
        exact hold op' hop'
      · rw [List.mem_singleton.mp hop']
        exact ⟨rfl, hvv, hkinds⟩
    · intro file' hfile'
      rw [hid] at hfile'
      obtain rfl : file = file' := by
        rw [Option.mem_def] at hfile
        simpa [hfile] using hfile'
      exact ⟨hlive, hdom, hfrozen⟩
    · intro hnone
      rw [hid] at hnone
      have hsome : l.store.getFile cfg.vaultId entry.fileId = some file := hfile
      have hnone' : l.store.getFile cfg.vaultId entry.fileId = none := hnone
      simp [hsome] at hnone'
    · rw [hid]
      exact halone
    · intro entry' hentry'
      rw [← hindex, hentry, Option.some.injEq] at hentry'
      exact ⟨hentry' ▸ hid, hentry' ▸ rfl⟩
  | none =>
    simp only [hentry] at hsync
    obtain ⟨hsaves, hunknown, hmissing, halone⟩ := hsync
    rw [hentry, Option.map_none, Option.getD_none] at hid
    -- this is the first save, and nothing is under way
    have hpending : pending = [] := by
      rcases h.content with ⟨-, hnone⟩ | ⟨fileId', vv, hc⟩
      · exact hnone
      · obtain ⟨saved, hsaved, -⟩ := hc.last
        simp [hsaves] at hsaved
    subst hpending
    rw [hid, hunknown] at hkind
    refine ⟨VersionVector.bump (appliedVV (l.engine.index.byFileId op.fileId)) cfg.deviceId,
      ?_, ?_, ?_, ?_, hlast, ?_⟩
    · intro op' hop'
      rw [List.nil_append, List.mem_singleton] at hop'
      rw [hop']
      exact ⟨rfl, hvv, hkinds⟩
    · intro file hfile
      rw [hid] at hfile
      have hfile' : l.store.getFile cfg.vaultId fileId.1 = some file := hfile
      simp [hmissing] at hfile'
    · exact fun _ => ⟨by rw [← hindex, hentry], op, rfl, by simpa using hkind⟩
    · exact fun other hother hlive => absurd hlive (halone other hother)
    · intro entry hentry'
      rw [← hindex, hentry] at hentry'
      simp at hentry'

/-- **A save in sync keeps the invariant.** -/
theorem writerInv_save (hset : WriterSetting P cfg path)
    (h : WriterInv P cfg userId path index l pending) {now : Time} {opId fileId : Uuid}
    {bytes : Bytes} (hstep : WriterStep P cfg path l (.save now opId fileId path bytes)) :
    ∃ pending', WriterInv P cfg userId path index (l.save P cfg now opId fileId path bytes)
      pending' := by
  obtain ⟨-, hfreshId, hsafe, hsync⟩ := hstep
  obtain ⟨device, hdevice, hvault, hrevoked, hnum⟩ := h.device
  have hid : ∀ entry, l.engine.index.byPath path = some entry → entry.fileId ≠ "" := by
    intro entry hentry
    unfold PathInSync at hsync
    simp only [hentry] at hsync
    exact hsync.1
  have hpos : 1 ≤ l.engine.outbox.nextDeviceSeq := by
    have := hnum.next
    omega
  obtain ⟨draft, op, hsyncPath, hop, hopId, hown, hseq, hhash, hfileId, hvv, hkind⟩ :=
    syncPath_written hset now opId fileId bytes l.engine h.sending.deviceId hpos hsafe hid
  obtain ⟨vv, hcontent⟩ := writerContent_save h hsync hhash hfileId hvv hkind
  refine ⟨pending ++ [op], ?_⟩
  -- the outbox after the op was added, and after the flush
  have hwritten : Sending P cfg path l.store pending
      { l.engine with vault := l.engine.vault.writeBytes path bytes } :=
    ⟨h.sending.deviceId, h.sending.rows, h.sending.kept, h.sending.outgoing, h.sending.waiters⟩
  have hsending := sending_enqueue hwritten now hop hown
    (fun row hrow => by rw [hopId]; exact hfreshId.2 row hrow) h.idle
  obtain ⟨hsent, hnext⟩ := sending_flushOutbox hsending (hnum.append hseq) now
  have hentries := sameEntries_enqueueLocalChange now opId draft { l.engine with
    vault := l.engine.vault.writeBytes path bytes }
  have hinFlight : ∀ message ∈ l.up, InFlight P cfg path l.store (pending ++ [op]) message := by
    intro message hm
    obtain ⟨op', hmessage, hown', hfirst⟩ := h.up message hm
    refine ⟨op', hmessage, hown', hfirst.imp_right fun hhead => ?_⟩
    rw [List.head?_append, hhead]
    rfl
  rw [Link.save, hsyncPath]
  refine writerInv_withEngine h.connected (hentries.files.trans h.files)
    ⟨device, hdevice, hvault, hrevoked, ?_⟩ h.canWrite ?_ hsent hinFlight h.down h.answers
    (Or.inr ⟨op.fileId, vv, hcontent⟩)
  · rw [enqueueLocalChange, hnext]
    exact hnum.append hseq
  · intro op' hop'
    rcases List.mem_append.mp hop' with hop' | hop'
    · exact h.fresh op' hop'
    · rw [List.mem_singleton.mp hop', hopId]
      exact ⟨hown, hfreshId.1⟩

end Save

/-! ### The server -/

section Server

variable {P : Platform} {cfg : ClientConfig} {userId path : String} {index : LocalIndex}
  {l : Link} {pending : List FileOp}

/-- A known op is answered from the log. -/
theorem process_of_acknowledged {s : Store} {op : FileOp} (h : Acknowledged s op.opId)
    (now : Time) (uuid : Uuid) (user : Option String) :
    ∃ result, process P now uuid op user s = (.ok (.ack result), s) ∧ result.opId = op.opId ∧
      result.conflictId = none := by
  obtain ⟨logged, result, hget, hresult, hid, hconflict⟩ := h
  refine ⟨result, ?_, hid, hconflict⟩
  rw [process, hget]
  exact congrArg (fun r => (Except.ok r, s)) hresult

/-- What a pending op does to the row. -/
theorem accepted_of_pending {op : FileOp} {rest : List FileOp} {fileId : String}
    {vv : VersionVector} {device : StoredDevice}
    (hc : WriterContent P cfg path index l (op :: rest) fileId vv)
    (hset : WriterSetting P cfg path) (hown : OwnOp P cfg path op)
    (hfresh : l.store.getOpById op.opId = none)
    (hdevice : l.store.getDevice cfg.deviceId = some device)
    (hvault : device.vaultId = cfg.vaultId) (hrevoked : device.revoked = false)
    (hseq : op.deviceSeq = device.lastDeviceSeq + 1)
    (hwrite : (l.store.getRole cfg.vaultId userId).elim false Role.canWrite = true)
    {now : Time} (uuid : Uuid) (htakes : ServerTakes cfg now l (.fileOp op)) :
    ∃ applied, accepted P now uuid op (some userId) l.store = some applied ∧
      applied.conflictId = none ∧ LiveAt P cfg.vaultId path applied.file ∧
      VersionVector.dominates vv applied.file.contentVV = true ∧
      truthy applied.file.conflictId = false ∧ applied.file.contentHash = op.contentHash := by
  obtain ⟨hfile, hvv, hkind⟩ := hc.ops op (List.mem_cons_self ..)
  obtain ⟨hash, hhash, -⟩ := hown.content.contentHash
  have hdeclared : declaredVV op = vv := by rw [declaredVV, hvv, Option.getD_some]
  have hnext : NextOfDevice op userId device l.store :=
    ⟨by
      rw [syntheticCollab, hown.deviceId]
      exact decide_eq_false (hset.notRoom op.fileId),
      by rw [hown.deviceId, hdevice], by rw [hvault, hown.vaultId], hrevoked,
      by rw [hown.vaultId]; exact hwrite, hseq⟩
  have hrow : opRow op l.store = l.store.getFile cfg.vaultId fileId := by
    rw [opRow, hown.vaultId, hfile]
  -- the row is overwritten, or it is the first save and its path is free
  cases hget : l.store.getFile cfg.vaultId fileId with
  | some file =>
    obtain ⟨hlive, hdom, hfrozen⟩ := hc.row file hget
    rw [hget] at hrow
    obtain ⟨applied, ha, hupdated, hconflict⟩ := accepted_of_dominates hfresh hnext
      hown.content htakes.2.1 hkind hrow hlive.1.2 (htakes.2.2 file hrow) hfrozen
      (hdeclared.symm ▸ hdom)
    refine ⟨applied, ha, hconflict, ?_⟩
    rw [hupdated]
    refine ⟨⟨⟨hlive.1.1, rfl⟩, hlive.2⟩, ?_, rfl, ?_⟩
    · show VersionVector.dominates vv (declaredVV op) = true
      rw [hdeclared]
      exact VersionVector.dominates_refl vv
    · show (op.contentHash.or op.blobRef).or file.contentHash = op.contentHash
      rw [hhash]
      rfl
  | none =>
    obtain ⟨-, op', hop', hcreate⟩ := hc.missing hget
    obtain ⟨rfl, rfl⟩ := List.cons.inj hop'
    rw [hget] at hrow
    have hfree : PathFree P l.store op.vaultId path op.fileId := by
      intro other hother
      obtain ⟨hmem, hlive, hpath⟩ := Store.of_findLiveFileByPath hother
      rw [hown.vaultId] at hlive
      rw [hfile]
      exact hc.alone other hmem ⟨hlive, hpath⟩
    obtain ⟨applied, ha, hcreated, hconflict⟩ := accepted_of_free hfresh
      hnext hown.content htakes.2.1 hcreate hrow hfree
    refine ⟨applied, ha, hconflict, ?_⟩
    rw [hcreated]
    refine ⟨⟨⟨hown.vaultId, rfl⟩, rfl⟩, ?_, rfl, ?_⟩
    · show VersionVector.dominates vv (declaredVV op) = true
      rw [hdeclared]
      exact VersionVector.dominates_refl vv
    · show op.contentHash.or op.blobRef = op.contentHash
      rw [hhash]
      rfl

/-- The store after the first pending op. -/
theorem commit_of_pending {op : FileOp} {rest : List FileOp} {fileId : String}
    {vv : VersionVector} {device : StoredDevice}
    (hc : WriterContent P cfg path index l (op :: rest) fileId vv)
    (hset : WriterSetting P cfg path) (hown : OwnOp P cfg path op)
    (hfresh : l.store.getOpById op.opId = none)
    (hdevice : l.store.getDevice cfg.deviceId = some device)
    (hvault : device.vaultId = cfg.vaultId) (hrevoked : device.revoked = false)
    (hseq : op.deviceSeq = device.lastDeviceSeq + 1)
    (hwrite : (l.store.getRole cfg.vaultId userId).elim false Role.canWrite = true)
    {now : Time} (uuid : Uuid) (htakes : ServerTakes cfg now l (.fileOp op)) :
    ∃ result store file, process P now uuid op (some userId) l.store = (.ok (.ack result), store) ∧
      result.opId = op.opId ∧ result.conflictId = none ∧
      (∃ device', store.getDevice cfg.deviceId = some device' ∧ device'.vaultId = cfg.vaultId ∧
        device'.revoked = false ∧ device'.lastDeviceSeq = device.lastDeviceSeq + 1) ∧
      store.getRole cfg.vaultId userId = l.store.getRole cfg.vaultId userId ∧
      Acknowledged store op.opId ∧
      (∀ opId ≠ op.opId, store.getOpById opId = l.store.getOpById opId) ∧
      store.getFile cfg.vaultId fileId = some file ∧
      (∀ other ∈ store.files.rows, other = file ∨ other ∈ l.store.files.rows) ∧
      LiveAt P cfg.vaultId path file ∧ VersionVector.dominates vv file.contentVV = true ∧
      truthy file.conflictId = false ∧ file.contentHash = op.contentHash := by
  obtain ⟨applied, ha, hconflict, hlive, hdom, hfrozen, hhash⟩ := accepted_of_pending hc hset hown
    hfresh hdevice hvault hrevoked hseq hwrite uuid htakes
  obtain ⟨hfile, -, -⟩ := hc.ops op (List.mem_cons_self ..)
  have hspec := accepted_spec ha
  have hkey := key_of_effect hspec.effect
  have hdev : opDevice op l.store = some device := by
    have : syntheticCollab op = false := by
      rw [syntheticCollab, hown.deviceId]
      exact decide_eq_false (hset.notRoom op.fileId)
    rw [opDevice, this, if_neg (by simp), hown.deviceId, hdevice]
  have hdeviceKey : device.deviceId = cfg.deviceId := Table.key_of_get? hdevice
  have hlookup : ∀ opId, (commit now op (opDevice op l.store) applied).2.getOpById opId
      = if op.opId = opId then some (loggedOp now op applied (applied.tx.nextSeq op.vaultId))
        else l.store.getOpById opId := by
    intro opId
    rw [Store.getOpById, commit_ops, hspec.frame.ops]
    exact Store.getOpById_append l.store _ opId
  refine ⟨_, _, applied.file, process_of_accepted ha, by rw [commit_ack]; rfl,
    by rw [commit_ack]; exact hconflict, ?_, ?_, ?_, ?_, ?_, ?_, hlive, hdom, hfrozen, hhash⟩
  · refine ⟨{ device with
      lastDeviceSeq := op.deviceSeq, lastSeq := applied.tx.nextSeq op.vaultId,
      lastSeen := some now }, ?_, hvault, hrevoked, hseq⟩
    rw [Store.getDevice, commit_devices, hdev, Table.get?_set, if_pos hdeviceKey]
  · rw [Store.getRole, commit_roles, hspec.frame.roles, Store.getRole]
  · exact ⟨_, _, by rw [hlookup, if_pos rfl], rfl, rfl, hconflict⟩
  · intro opId hne
    rw [hlookup, if_neg hne.symm]
  · rw [Store.getFile, commit_files, Table.get?_set, if_pos]
    rw [hkey, hown.vaultId, hfile]
  · intro other hother
    exact ((mem_files_commit _ hspec.effect hspec.frame).mp hother).imp_right And.left

theorem acknowledged_congr {s s' : Store} {opId : String}
    (h : s'.getOpById opId = s.getOpById opId) : Acknowledged s opId → Acknowledged s' opId := by
  unfold Acknowledged
  rw [h]
  exact id

/-- What the server does with an op that is acknowledged. -/
theorem receiveFileOp_ack {op : FileOp} (hown : OwnOp P cfg path op) {now : Time} {uuid : Uuid}
    (hmay : Link.mayUseContent cfg.vaultId op l = true) {result : OpAckResult} {store : Store}
    (hprocess : process P now uuid op (some userId) l.store = (.ok (.ack result), store)) :
    ∃ owners, l.receiveFileOp P cfg userId now uuid op =
      (.opAck result.opId result.vaultSeq result.resultingClocks result.conflictId,
        { l with
          store, pendingBlobOwners := owners, answers := l.answers ++ [.ack result] }) := by
  have hmatch : ¬ (op.deviceId ≠ cfg.deviceId ∨ op.vaultId ≠ cfg.vaultId) := by
    simp [hown.deviceId, hown.vaultId]
  unfold Link.receiveFileOp
  rw [if_neg hmatch, hmay, if_neg (by simp), hprocess]
  dsimp only
  unfold Link.claimBlob
  split <;> exact ⟨_, rfl⟩

theorem serverReceive_fileOp {up : List ClientMessage} {op : FileOp} {now : Time} {uuid : Uuid}
    {delivers : ServerMessage → Bool} (hup : l.up = .fileOp op :: up) (hjoined : l.joined = true)
    (hown : OwnOp P cfg path op) (htakes : ServerTakes cfg now l (.fileOp op))
    {result : OpAckResult} {store : Store}
    (hprocess : process P now uuid op (some userId) l.store = (.ok (.ack result), store)) :
    ∃ owners, l.serverReceive P cfg userId now uuid delivers =
      { l with
        store, up, pendingBlobOwners := owners, answers := l.answers ++ [.ack result]
        down := l.down ++ [ServerMessage.opAck result.opId result.vaultSeq result.resultingClocks
          result.conflictId].filter delivers } := by
  obtain ⟨owners, hreceive⟩ := receiveFileOp_ack (l := { l with up }) hown htakes.1 hprocess
  refine ⟨owners, ?_⟩
  unfold Link.serverReceive
  rw [hup]
  dsimp only [Link.answer]
  rw [if_neg (by simp [hjoined]), hreceive]

theorem InFlight.accepted {s s' : Store} {op : FileOp} {rest : List FileOp}
    {message : ClientMessage} (h : InFlight P cfg path s (op :: rest) message)
    (hmono : ∀ opId, Acknowledged s opId → Acknowledged s' opId)
    (hacked : Acknowledged s' op.opId) : InFlight P cfg path s' rest message := by
  obtain ⟨op', hmessage, hown, hack | hhead⟩ := h
  · exact ⟨op', hmessage, hown, Or.inl (hmono _ hack)⟩
  · rw [List.head?_cons, Option.some.injEq] at hhead
    exact ⟨op', hmessage, hown, Or.inl (hhead ▸ hacked)⟩

/-- Two pending ops with one id would share a row of the outbox. -/
theorem Sending.opId_ne {s : Store} {op : FileOp} {rest : List FileOp} {e : Engine}
    (h : Sending P cfg path s (op :: rest) e) (hnotin : op ∉ rest) :
    ∀ op' ∈ rest, op'.opId ≠ op.opId := by
  intro op' hop' hsame
  obtain ⟨row, hrow, rfl, -⟩ := h.kept op (List.mem_cons_self ..)
  obtain ⟨row', hrow', rfl, -⟩ := h.kept op' (List.mem_cons_of_mem _ hop')
  have : row' = row := Table.eq_of_key_eq hrow' hrow hsame
  exact hnotin (this ▸ hop')

/-- The outbox once the first pending op is in the log. -/
theorem Sending.accepted {s s' : Store} {op : FileOp} {rest : List FileOp} {e : Engine}
    (h : Sending P cfg path s (op :: rest) e)
    (hmono : ∀ opId, Acknowledged s opId → Acknowledged s' opId)
    (hacked : Acknowledged s' op.opId) (hnotin : op ∉ rest) : Sending P cfg path s' rest e where
  deviceId := h.deviceId
  rows := by
    intro row hrow
    obtain ⟨hown, hack | ⟨hmem, hstatus⟩⟩ := h.rows row hrow
    · exact ⟨hown, Or.inl (hmono _ hack)⟩
    · refine ⟨hown, ?_⟩
      rcases List.mem_cons.mp hmem with hsame | hmem
      · exact Or.inl (hsame ▸ hacked)
      · refine Or.inr ⟨hmem, Or.inl (hstatus.resolve_right fun hhead => ?_)⟩
        rw [List.head?_cons, Option.some.injEq] at hhead
        exact hnotin (hhead ▸ hmem)
  kept := fun op' hop' => h.kept op' (List.mem_cons_of_mem _ hop')
  outgoing := fun message hm => (h.outgoing message hm).accepted hmono hacked
  waiters := h.waiters

/-- The content once the row has what the first pending op brought. -/
theorem WriterContent.accepted {l' : Link} {op : FileOp} {rest : List FileOp} {fileId : String}
    {vv : VersionVector} {file : StoredFile}
    (hc : WriterContent P cfg path index l (op :: rest) fileId vv)
    (hrow : l'.store.getFile cfg.vaultId fileId = some file)
    (hrows : ∀ other ∈ l'.store.files.rows, other = file ∨ other ∈ l.store.files.rows)
    (hlive : LiveAt P cfg.vaultId path file)
    (hdom : VersionVector.dominates vv file.contentVV = true)
    (hfrozen : truthy file.conflictId = false) (hhash : file.contentHash = op.contentHash)
    (hsaves : l'.saves = l.saves) : WriterContent P cfg path index l' rest fileId vv where
  ops := fun op' hop' => hc.ops op' (List.mem_cons_of_mem _ hop')
  row := by
    intro file' hfile'
    rw [hrow, Option.some.injEq] at hfile'
    exact hfile' ▸ ⟨hlive, hdom, hfrozen⟩
  missing := by
    intro hnone
    rw [hrow] at hnone
    cases hnone
  alone := by
    intro other hother hliveOther
    rcases hrows other hother with rfl | hold
    · exact (Store.key_of_getFile hrow).2
    · exact hc.alone other hold hliveOther
  last := by
    obtain ⟨saved, hsaved, hmatch⟩ := hc.last
    refine ⟨saved, hsaves ▸ hsaved, ?_⟩
    cases rest with
    | nil =>
      intro file' hfile'
      rw [hrow, Option.some.injEq] at hfile'
      rw [← hfile', hhash]
      exact hmatch
    | cons next others =>
      rw [List.getLast?_cons_cons] at hmatch
      exact hmatch
  entry := hc.entry

/-- The answer, if the socket has room for it, is an ack of a logged op. -/
theorem WriterInv.down_opAck (h : WriterInv P cfg userId path index l pending) {s : Store}
    {opId : String} {result : OpAckResult} {delivers : ServerMessage → Bool}
    (hack : Acknowledged s opId) (hid : result.opId = opId) (hconflict : result.conflictId = none)
    (hmono : ∀ opId, Acknowledged l.store opId → Acknowledged s opId) :
    ∀ message ∈ l.down ++ [ServerMessage.opAck result.opId result.vaultSeq
        result.resultingClocks result.conflictId].filter delivers,
      ∃ opId seq clocks, message = .opAck opId seq clocks none ∧ Acknowledged s opId := by
  intro message hm
  rcases List.mem_append.mp hm with hm | hm
  · obtain ⟨opId, seq, clocks, hmessage, hack'⟩ := h.down message hm
    exact ⟨opId, seq, clocks, hmessage, hmono opId hack'⟩
  · have := List.mem_singleton.mp (List.mem_of_mem_filter hm)
    exact ⟨opId, _, _, by rw [this, hid, hconflict], hack⟩

theorem WriterInv.answers_ack (h : WriterInv P cfg userId path index l pending)
    {result : OpAckResult} (hconflict : result.conflictId = none) :
    ∀ r ∈ l.answers ++ [OpApplyResult.ack result], ∃ ack, r = .ack ack ∧
      ack.conflictId = none := by
  intro r hr
  rcases List.mem_append.mp hr with hr | hr
  · exact h.answers r hr
  · exact ⟨result, List.mem_singleton.mp hr, hconflict⟩

variable {op : FileOp} {up : List ClientMessage} {now : Time} {uuid : Uuid}
  {delivers : ServerMessage → Bool}

/-- An op that was processed before is answered from the log. -/
theorem writerInv_replayed (h : WriterInv P cfg userId path index l pending)
    (hup : l.up = .fileOp op :: up) (hown : OwnOp P cfg path op)
    (htakes : ServerTakes cfg now l (.fileOp op)) (hack : Acknowledged l.store op.opId) :
    WriterInv P cfg userId path index (l.serverReceive P cfg userId now uuid delivers)
      pending := by
  obtain ⟨result, hprocess, hid, hconflict⟩ := process_of_acknowledged (P := P) hack now uuid
    (some userId)
  obtain ⟨owners, heq⟩ := serverReceive_fileOp hup h.connected.2 hown htakes hprocess
  rw [heq]
  refine ⟨h.connected, h.files, h.idle, h.device, h.canWrite, h.fresh, h.sending,
    fun message hm => h.up message (by simp [hup, hm]),
    h.down_opAck hack hid hconflict fun _ => id, h.answers_ack hconflict, ?_⟩
  rcases h.content with hnone | ⟨fileId, vv, hc⟩
  · exact Or.inl hnone
  · exact Or.inr ⟨fileId, vv, hc.ops, hc.row, hc.missing, hc.alone, hc.last, hc.entry⟩

/-- The first pending op is accepted, and the others stay pending. -/
theorem writerInv_accepted (hset : WriterSetting P cfg path) {rest : List FileOp}
    (h : WriterInv P cfg userId path index l (op :: rest)) (hup : l.up = .fileOp op :: up)
    (hown : OwnOp P cfg path op) (htakes : ServerTakes cfg now l (.fileOp op)) :
    WriterInv P cfg userId path index (l.serverReceive P cfg userId now uuid delivers) rest := by
  obtain ⟨fileId, vv, hc⟩ : ∃ fileId vv, WriterContent P cfg path index l (op :: rest) fileId vv :=
    h.content.resolve_left fun hnone => by simp at hnone
  obtain ⟨device, hdevice, hvault, hrevoked, hnum⟩ := h.device
  obtain ⟨hseq, hnumRest, hnotin⟩ := hnum.tail
  have hfresh := (h.fresh op (List.mem_cons_self ..)).2
  obtain ⟨result, store, file, hprocess, hid, hconflict, ⟨device', hdevice', hvault', hrevoked',
    hlast⟩, hrole, hacked, hothers, hrow, hrows, hlive, hdom, hfrozen, hhash⟩ :=
    commit_of_pending hc hset hown hfresh hdevice hvault hrevoked hseq h.canWrite uuid htakes
  obtain ⟨owners, heq⟩ := serverReceive_fileOp hup h.connected.2 hown htakes hprocess
  have hmono : ∀ opId, Acknowledged l.store opId → Acknowledged store opId := by
    intro opId hopId
    by_cases hne : opId = op.opId
    · rw [hne]
      exact hacked
    · exact acknowledged_congr (hothers opId hne) hopId
  rw [heq]
  refine ⟨h.connected, h.files, h.idle,
    ⟨device', hdevice', hvault', hrevoked', hlast ▸ hnumRest⟩, ?_, ?_,
    h.sending.accepted hmono hacked hnotin,
    fun message hm => (h.up message (by simp [hup, hm])).accepted hmono hacked,
    h.down_opAck hacked hid hconflict hmono, h.answers_ack hconflict, Or.inr ⟨fileId, vv,
    hc.accepted hrow hrows hlive hdom hfrozen hhash rfl⟩⟩
  · show (store.getRole cfg.vaultId userId).elim false Role.canWrite = true
    rw [hrole]
    exact h.canWrite
  · intro op' hop'
    obtain ⟨hown', hnone⟩ := h.fresh op' (List.mem_cons_of_mem _ hop')
    exact ⟨hown', (hothers _ (h.sending.opId_ne hnotin op' hop')).trans hnone⟩

/-- **The server keeps the invariant.** -/
theorem writerInv_serverReceive (hset : WriterSetting P cfg path)
    (h : WriterInv P cfg userId path index l pending)
    (hstep : WriterStep P cfg path l (.serverReceive now uuid delivers)) :
    ∃ pending', WriterInv P cfg userId path index
      (l.serverReceive P cfg userId now uuid delivers) pending' := by
  cases hup : l.up with
  | nil =>
    rw [Link.serverReceive, hup]
    exact ⟨pending, h⟩
  | cons message up =>
    obtain ⟨op, rfl, hown, hfirst⟩ := h.up message (by simp [hup])
    have htakes : ServerTakes cfg now l (.fileOp op) := hstep _ (by simp [hup])
    rcases hfirst with hack | hhead
    · exact ⟨pending, writerInv_replayed h hup hown htakes hack⟩
    · cases pending with
      | nil => simp at hhead
      | cons first rest =>
        rw [List.head?_cons, Option.some.injEq] at hhead
        subst hhead
        exact ⟨rest, writerInv_accepted hset h hup hown htakes⟩

end Server

/-! ### Runs -/

section Runs

variable {P : Platform} {cfg : ClientConfig} {userId path : String} {index : LocalIndex}
  {l : Link} {pending : List FileOp}

/-- **An ack keeps the invariant.** -/
theorem writerInv_clientReceive (h : WriterInv P cfg userId path index l pending) (now : Time) :
    WriterInv P cfg userId path index (l.clientReceive cfg now) pending := by
  cases hdown : l.down with
  | nil =>
    rw [Link.clientReceive, hdown]
    exact h
  | cons message down =>
    obtain ⟨opId, seq, clocks, rfl, hack⟩ := h.down message (by simp [hdown])
    obtain ⟨device, hdevice, hvault, hrevoked, hnum⟩ := h.device
    have hindex := index_handleAck now opId seq none l.engine
    -- the acknowledged entry leaves the outbox, then it is flushed
    have herased : Sending P cfg path l.store pending (persistOutbox { l.engine with
        outbox := l.engine.outbox.ack opId, index := l.engine.index.setAppliedSeq seq }) := by
      refine ⟨h.sending.deviceId, fun row hrow => ?_, fun op hop => ?_, h.sending.outgoing,
        h.sending.waiters⟩
      · exact h.sending.rows row (Table.mem_erase_iff.mp hrow).1
      · obtain ⟨row, hrow, rfl, hstatus⟩ := h.sending.kept op hop
        refine ⟨row, Table.mem_erase_iff.mpr ⟨hrow, fun hsame => ?_⟩, rfl, hstatus⟩
        obtain ⟨logged, result, hget, -⟩ := hack
        have hnone := (h.fresh row.op hop).2
        have hsame' : row.op.opId = opId := hsame
        simp [hsame', hget] at hnone
    obtain ⟨hsent, hnext⟩ := sending_flushOutbox herased hnum now
    have hack' : handleAck now opId seq none l.engine
        = flushOutbox now (persistOutbox { l.engine with
        outbox := l.engine.outbox.ack opId, index := l.engine.index.setAppliedSeq seq }) := by
      have hwaiters : l.engine.forceWaiters = [] := h.sending.waiters
      unfold handleAck
      simp [persistOutbox, hwaiters]
    have hstep : l.clientReceive cfg now = Link.addBatch
        (Link.withEngine { l with down, acked := l.acked ++ [seq] }
          (handleAck now opId seq none l.engine)) none := by
      rw [Link.clientReceive, hdown]
      rfl
    have hinv := writerInv_withEngine
      (l := { l with down, acked := l.acked ++ [seq] })
      (e := handleAck now opId seq none l.engine) h.connected (hindex.1.trans h.files)
      ⟨device, hdevice, hvault, hrevoked, by rw [hack', hnext]; exact hnum⟩ h.canWrite h.fresh
      (hack' ▸ hsent) h.up (fun message hm => h.down message (by simp [hdown, hm])) h.answers
      (h.content.imp_right fun ⟨fileId, vv, hc⟩ =>
        ⟨fileId, vv, hc.ops, hc.row, hc.missing, hc.alone, hc.last, hc.entry⟩)
    rw [hstep]
    exact ⟨hinv.connected, hinv.files, hinv.idle, hinv.device, hinv.canWrite, hinv.fresh,
      hinv.sending, hinv.up, hinv.down, hinv.answers,
      hinv.content.imp_right fun ⟨fileId, vv, hc⟩ =>
        ⟨fileId, vv, hc.ops, hc.row, hc.missing, hc.alone, hc.last, hc.entry⟩⟩

/-- An upload only adds a blob. -/
theorem writerInv_upload (h : WriterInv P cfg userId path index l pending) (hash : String)
    (size : ℕ) : WriterInv P cfg userId path index (l.upload hash size) pending := by
  have hcontent : ∀ {l' : Link}, l'.store.files = l.store.files → l'.saves = l.saves →
      (l'.saves = [] ∧ pending = []) ∨
        ∃ fileId vv, WriterContent P cfg path index l' pending fileId vv := by
    intro l' hfiles hsaves
    have hget : ∀ fileId,
        l'.store.getFile cfg.vaultId fileId = l.store.getFile cfg.vaultId fileId :=
      fun fileId => by rw [Store.getFile, hfiles, Store.getFile]
    rcases h.content with ⟨hnone, hpending⟩ | ⟨fileId, vv, hc⟩
    · exact Or.inl ⟨hsaves.trans hnone, hpending⟩
    · refine Or.inr ⟨fileId, vv, hc.ops, ?_, ?_, ?_, ?_, hc.entry⟩
      · rw [hget]
        exact hc.row
      · rw [hget]
        exact hc.missing
      · rw [hfiles]
        exact hc.alone
      · rw [hsaves, hget]
        exact hc.last
  unfold Link.upload
  dsimp only
  have huploaded : WriterInv P cfg userId path index
      { l with
        store := l.store.saveBlob { hash, size, state := .verified }
        pendingBlobOwners := l.pendingBlobOwners ++ [hash] } pending :=
    ⟨h.connected, h.files, h.idle, h.device, h.canWrite, h.fresh,
      ⟨h.sending.deviceId, h.sending.rows, h.sending.kept, h.sending.outgoing, h.sending.waiters⟩,
      h.up, h.down, h.answers, hcontent rfl rfl⟩
  split
  · exact huploaded
  split
  · exact h
  · exact huploaded

/-- The invariant gives the property. -/
theorem savesArrive_of_writerInv (h : WriterInv P cfg userId path index l pending) :
    SavesArrive P cfg path l := by
  refine ⟨fun result hresult => ?_, fun hdrained saved hsaved => ?_⟩
  · obtain ⟨ack, rfl, hconflict⟩ := h.answers result hresult
    exact fun hlost => hlost hconflict
  · -- a pending op would still be in the outbox
    have hpending : pending = [] := by
      rw [List.eq_nil_iff_forall_not_mem]
      intro op hop
      obtain ⟨row, hrow, -⟩ := h.sending.kept op hop
      have := OutboxManager.mem_entries.mpr hrow
      simp [hdrained] at this
    subst hpending
    rcases h.content with ⟨hnone, -⟩ | ⟨fileId, vv, hc⟩
    · simp [hnone] at hsaved
    obtain ⟨saved', hsaved', hmatch⟩ := hc.last
    rw [Option.mem_def, hsaved', Option.some.injEq] at hsaved
    subst hsaved
    cases hfile : l.store.getFile cfg.vaultId fileId with
    | none =>
      obtain ⟨-, op, hop, -⟩ := hc.missing hfile
      simp at hop
    | some file =>
      refine ⟨file, Table.mem_of_get? hfile, (hc.row file hfile).1, fun other hother hlive => ?_,
        hmatch file hfile⟩
      have hid := hc.alone other hother hlive
      exact Table.eq_of_key_eq hother (Table.mem_of_get? hfile)
        (Prod.ext (hlive.1.1.trans (Store.key_of_getFile hfile).1.symm)
          (hid.trans (Store.key_of_getFile hfile).2.symm))

/-- **The saves of a single writer arrive.**  In every state of a run in which every
save finds the path in sync, no save has lost, and once the outbox has drained the
server has exactly one live file at the path, with the content of the last save. -/
theorem savesArrive_of_pathInSync (hset : WriterSetting P cfg path)
    (hready : WriterReady cfg userId l) {events : List LinkEvent}
    (hevents : Run.EachStep (linkStep P cfg userId) (WriterStep P cfg path) l events) :
    Run.Throughout (linkStep P cfg userId) (SavesArrive P cfg path) l events := by
  have hstep : ∀ l' event,
      (∃ pending, WriterInv P cfg userId path l.engine.index l' pending) →
      WriterStep P cfg path l' event →
      ∃ pending, WriterInv P cfg userId path l.engine.index (linkStep P cfg userId l' event)
        pending := by
    rintro l' event ⟨pending, h⟩ hC
    cases event with
    | save now opId fileId path' bytes =>
      obtain rfl : path' = path := hC.1
      exact writerInv_save hset h hC
    | serverReceive now uuid delivers => exact writerInv_serverReceive hset h hC
    | clientReceive now => exact ⟨pending, writerInv_clientReceive h now⟩
    | upload hash size => exact ⟨pending, writerInv_upload h hash size⟩
    | rename | delete | resume | remote | broadcast | connect | disconnect => exact absurd hC id
  refine (Run.throughout_of_invariant hstep ⟨[], ?_⟩ hevents).mono
    fun l' ⟨pending, h⟩ => savesArrive_of_writerInv h
  obtain ⟨hup, hdown, hidle, hwaiters⟩ := hready.silent
  obtain ⟨device, hdevice, hvault, hrevoked, hnext⟩ := hready.device
  exact ⟨hready.connected, rfl, hidle, ⟨device, hdevice, hvault, hrevoked, rfl, hnext⟩,
    hready.canWrite, by simp,
    ⟨hready.deviceId, by simp [hready.drained], by simp, by simp [hidle], hwaiters⟩,
    by simp [hup], by simp [hdown], by simp [hready.past.2], Or.inl ⟨hready.past.1, rfl⟩⟩

end Runs

/-! ### A path the index knows, and one it does not -/

/-- The device has received the note of another. -/
def knownNote : Link :=
  Run.final (linkStep samplePlatform sampleClient "u") (Link.initial sampleClient sampleStore)
    (sampleHandshake ++
    [.remote (.process 2 sampleUuid
        (sampleContentOp .create "o1" "d2" "f1" 1 (some "a.md") (sampleVV "d2" 1) "one")
        (some "u")),
      .broadcast 0 true, .clientReceive 2, .resume 2 0])

/-- Two saves of one path, the second before the first is acknowledged; the first
ack is dropped and asked for again by the second save. -/
def twoSaves : List LinkEvent :=
  [.save 3 (sampleId 1) (sampleId 2) "a.md" (encodeText "two"),
    .serverReceive 3 sampleUuid (fun _ => false),
    .save 4 (sampleId 3) (sampleId 4) "a.md" (encodeText "three"),
    .serverReceive 5 sampleUuid (fun _ => true), .clientReceive 5,
    .serverReceive 6 sampleUuid (fun _ => true), .clientReceive 6]

/-- Saves of a note the index knows arrive. -/
theorem savesArrive_knownNote :
    Run.Throughout (linkStep samplePlatform sampleClient "u")
      (SavesArrive samplePlatform sampleClient "a.md") knownNote twoSaves :=
  savesArrive_of_pathInSync
    ⟨by decide, by decide, fun fileId h => by
      have := congrArg (fun s => s.toList.head?) h
      simp [sampleClient] at this,
      by decide, by decide⟩
    ⟨by decide +kernel, by decide +kernel, by decide +kernel, by decide +kernel,
      by decide +kernel, by decide +kernel, by decide +kernel⟩
    (by decide +kernel)

/-- Two saves of a new path, each acknowledged before the next. -/
def twoSavesOfNew : List LinkEvent :=
  sampleHandshake ++
  [.save 3 (sampleId 1) (sampleId 2) "a.md" (encodeText "two"),
    .serverReceive 4 sampleUuid (fun _ => true), .clientReceive 4,
    .save 5 (sampleId 3) (sampleId 4) "a.md" (encodeText "three"),
    .serverReceive 6 sampleUuid (fun _ => true), .clientReceive 6]

/-- The second save makes a second file beside the first, which keeps its text. -/
theorem not_savesArrive_twoSavesOfNew :
    ¬ SavesArrive samplePlatform sampleClient "a.md"
      (Run.final (linkStep samplePlatform sampleClient "u") (Link.initial sampleClient sampleStore)
        twoSavesOfNew) := by
  decide +kernel

end ObsidianSync
