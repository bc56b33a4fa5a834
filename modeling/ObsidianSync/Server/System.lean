import ObsidianSync.Server.Conflict

/-!
# The server as a transition system

The calls that change the store, one event each: ops of any kind from any device
or from a room, the three calls of the conflict service, and the writes that
other parts of the server make to devices, roles, blobs and kept content.

## Main definitions

* `ServerEvent`, `serverStep` — the events and what they do to the store.
* `writtenFile` — the file row an event writes, if it writes one.
* `NamesOwnFile` — a create takes no id of another vault's file.

## Main results

* `files_serverStep` — the files after an event.
-/

namespace ObsidianSync

/-- A call on the server, with what it takes from outside. -/
inductive ServerEvent
  | process (now : Time) (uuid : Uuid) (op : FileOp) (userId : Option String)
  | claim (vaultId userId deviceId conflictId : String)
  | release (vaultId userId deviceId conflictId : String)
  | resolve (now : Time) (input : ResolveInput)
  | saveDevice (device : StoredDevice)
  | setRole (vaultId userId : String) (role : Role)
  | saveBlob (blob : BlobRecord)
  | putContent (hash : String) (bytes : Bytes)

/-- The store after a call. -/
def serverStep (P : Platform) (s : Store) : ServerEvent → Store
  | .process now uuid op userId => (process P now uuid op userId s).2
  | .claim vaultId userId deviceId conflictId => (claim vaultId userId deviceId conflictId s).2
  | .release vaultId userId deviceId conflictId =>
    (release vaultId userId deviceId conflictId s).2
  | .resolve now input => (resolve P now input s).2
  | .saveDevice device => s.saveDevice device
  | .setRole vaultId userId role =>
    { s with roles := s.roles.set ((vaultId, userId), role) }
  | .saveBlob blob => s.saveBlob blob
  | .putContent hash bytes => s.putContent hash bytes

/-- The file row an event writes, if it writes one. -/
def writtenFile (P : Platform) (s : Store) : ServerEvent → Option StoredFile
  | .process now uuid op userId => (accepted P now uuid op userId s).map Applied.file
  | .resolve now input => (resolution P input s).map fun r =>
    resolvedFile now input r.conflict r.content r.file
  | _ => none

/-- No row of another vault has the id a create names.  The tables keep files by their ids alone,
and would write over that row. -/
def NamesOwnFile (s : Store) (op : FileOp) : Prop :=
  op.kind = .create → ∀ row ∈ s.files.rows, row.fileId = op.fileId → row.vaultId = op.vaultId

instance (s : Store) (op : FileOp) : Decidable (NamesOwnFile s op) :=
  inferInstanceAs (Decidable (_ → ∀ _ ∈ _, _))

/-- The files after an event. -/
theorem files_serverStep (P : Platform) (s : Store) (e : ServerEvent) :
    (serverStep P s e).files = match writtenFile P s e with
      | none => s.files
      | some file => s.files.set file := by
  cases e with
  | process now uuid op userId =>
    cases ha : accepted P now uuid op userId s with
    | none =>
      simp only [serverStep, writtenFile, ha, Option.map_none]
      exact (frame_of_not_accepted ha).1.files
    | some applied =>
      simp only [serverStep, writtenFile, ha, Option.map_some, process_of_accepted ha,
        commit_files, (accepted_spec ha).frame.files]
  | claim vaultId userId deviceId conflictId =>
    rcases claim_cases vaultId userId deviceId conflictId s with h | ⟨_, _, -, -, -, h⟩ <;>
      simp only [serverStep, writtenFile, h]
  | release vaultId userId deviceId conflictId =>
    rcases release_cases vaultId userId deviceId conflictId s with h | ⟨_, _, -, -, -, h⟩ <;>
      simp only [serverStep, writtenFile, h]
  | resolve now input =>
    cases hr : resolution P input s with
    | none => simp only [serverStep, writtenFile, hr, Option.map_none, resolve_of_no_resolution hr]
    | some r =>
      obtain ⟨-, -, -, h⟩ := resolve_of_resolution now hr
      simp only [serverStep, writtenFile, hr, Option.map_some, h]
  | saveDevice device => rfl
  | setRole vaultId userId role => rfl
  | saveBlob blob => rfl
  | putContent hash bytes => rfl

/-- The row of a file after an event. -/
theorem getFile_serverStep (P : Platform) (s : Store) (e : ServerEvent)
    (vaultId fileId : String) :
    (serverStep P s e).getFile vaultId fileId = match writtenFile P s e with
      | none => s.getFile vaultId fileId
      | some file =>
        if file.key = (vaultId, fileId) then some file else s.getFile vaultId fileId := by
  have hfiles := files_serverStep P s e
  cases hw : writtenFile P s e with
  | none =>
    rw [hw] at hfiles
    rw [Store.getFile, hfiles, Store.getFile]
  | some file =>
    rw [hw] at hfiles
    rw [Store.getFile, hfiles, Table.get?_set, Store.getFile]

/-! ### The log -/

/-- The entry an event appends to the log, if it appends one. -/
def loggedEntry (P : Platform) (s : Store) : ServerEvent → Option StoredOp
  | .process now uuid op userId => (accepted P now uuid op userId s).map fun applied =>
    loggedOp now op applied (s.nextSeq op.vaultId)
  | _ => none

/-- The log after an event. -/
theorem ops_serverStep (P : Platform) (s : Store) (e : ServerEvent) :
    (serverStep P s e).ops = s.ops ++ (loggedEntry P s e).toList := by
  cases e with
  | process now uuid op userId =>
    cases ha : accepted P now uuid op userId s with
    | none =>
      simp only [serverStep, loggedEntry, ha, Option.map_none, Option.toList_none, List.append_nil]
      exact (frame_of_not_accepted ha).1.ops
    | some applied =>
      have hframe := (accepted_spec ha).frame
      simp only [serverStep, loggedEntry, ha, Option.map_some, process_of_accepted ha, commit_ops,
        hframe.ops, hframe.nextSeq, Option.toList_some]
  | claim vaultId userId deviceId conflictId =>
    rcases claim_cases vaultId userId deviceId conflictId s with h | ⟨_, _, -, -, -, h⟩ <;>
      simp [serverStep, loggedEntry, h]
  | release vaultId userId deviceId conflictId =>
    rcases release_cases vaultId userId deviceId conflictId s with h | ⟨_, _, -, -, -, h⟩ <;>
      simp [serverStep, loggedEntry, h]
  | resolve now input =>
    cases hr : resolution P input s with
    | none => simp [serverStep, loggedEntry, resolve_of_no_resolution hr]
    | some r =>
      obtain ⟨-, -, -, h⟩ := resolve_of_resolution now hr
      have hframe := (frame_resolutionRefs input r.conflict r.content r.file s).1
      simp [serverStep, loggedEntry, h, hframe.ops]
  | saveDevice device => exact (List.append_nil _).symm
  | setRole vaultId userId role => exact (List.append_nil _).symm
  | saveBlob blob => exact (List.append_nil _).symm
  | putContent hash bytes => exact (List.append_nil _).symm

/-- The next sequence of a vault after an event. -/
theorem nextSeq_serverStep (P : Platform) (s : Store) (e : ServerEvent) (vaultId : String) :
    (serverStep P s e).nextSeq vaultId
      = s.nextSeq vaultId
        + ((loggedEntry P s e).toList.filter fun op => op.vaultId = vaultId).length := by
  cases e with
  | process now uuid op userId =>
    cases ha : accepted P now uuid op userId s with
    | none =>
      simp only [serverStep, loggedEntry, ha, Option.map_none, Option.toList_none]
      exact (frame_of_not_accepted ha).1.nextSeq vaultId
    | some applied =>
      have hframe := (accepted_spec ha).frame
      simp only [serverStep, loggedEntry, ha, Option.map_some, process_of_accepted ha,
        commit_nextSeq, hframe.nextSeq, Option.toList_some]
      by_cases h : op.vaultId = vaultId <;> simp [loggedOp, h]
  | claim vaultId' userId deviceId conflictId =>
    rcases claim_cases vaultId' userId deviceId conflictId s with h | ⟨_, _, -, -, -, h⟩ <;>
      simp [serverStep, loggedEntry, h, Store.nextSeq]
  | release vaultId' userId deviceId conflictId =>
    rcases release_cases vaultId' userId deviceId conflictId s with h | ⟨_, _, -, -, -, h⟩ <;>
      simp [serverStep, loggedEntry, h, Store.nextSeq]
  | resolve now input =>
    cases hr : resolution P input s with
    | none => simp [serverStep, loggedEntry, resolve_of_no_resolution hr]
    | some r =>
      obtain ⟨-, -, -, h⟩ := resolve_of_resolution now hr
      have hframe := (frame_resolutionRefs input r.conflict r.content r.file s).1
      simp only [serverStep, loggedEntry, h, Option.toList_none, List.filter_nil, List.length_nil,
        Nat.add_zero]
      exact Store.nextSeq_congr hframe.seqs vaultId
  | saveDevice device => rfl
  | setRole vaultId' userId role => rfl
  | saveBlob blob => rfl
  | putContent hash bytes => rfl

/-! ### A vault to compute with -/

/-- A vault with two devices and no files. -/
def sampleStore : Store :=
  [{ deviceId := "d1", userId := "u", vaultId := "v", lastDeviceSeq := 0, lastSeq := 0,
     revoked := false },
   { deviceId := "d2", userId := "u", vaultId := "v", lastDeviceSeq := 0, lastSeq := 0,
     revoked := false }].foldl Store.saveDevice
    { roles := Table.empty.set (("v", "u"), .owner) }

/-- The conflict id no event of a sample run uses. -/
def sampleUuid : Uuid := ⟨"c", by decide⟩

/-- The ids devices draw in sample runs. -/
def sampleId (n : ℕ) : Uuid :=
  ⟨"id-" ++ toString n, fun h => absurd (congrArg String.length h) (by simp)⟩

/-- The vector with one counter. -/
def sampleVV (deviceId : String) (counter : ℕ) : VersionVector :=
  Table.empty.set (deviceId, counter)

/-- A content op of the vault that carries its text. -/
def sampleContentOp (kind : OpKind) (opId deviceId fileId : String) (deviceSeq : ℕ)
    (newPath : Option String) (vv : VersionVector) (text : String) : FileOp :=
  { opId, deviceId, deviceSeq, fileId, vaultId := "v", kind, type := .note,
    newContentVV := some vv, contentHash := some (contentHashText samplePlatform text),
    inlineText := some text, newPath }

/-- A delete as clients send it. -/
def sampleDelete (opId deviceId fileId : String) (deviceSeq : ℕ) : FileOp :=
  { opId, deviceId, deviceSeq, fileId, vaultId := "v", kind := .delete, type := .note }

end ObsidianSync
