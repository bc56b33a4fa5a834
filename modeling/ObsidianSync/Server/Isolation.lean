import ObsidianSync.Server.Agreement
import ObsidianSync.Server.LivePaths
import ObsidianSync.Server.Log
import ObsidianSync.Server.StoredPaths

/-!
# Two stores, one run

The same ops go to a database and to an in-memory store.  `saveFile` finds the
row to overwrite by file id alone, while every read also asks for the vault: a
create under an id of another vault finds no row and overwrites that vault's.
Where no op does this, and no statement breaks a constraint of the schema, no op
touches another vault's rows, and the two stores give the same files throughout.

## Main definitions

* `Stores`, `storesStep` — a database and an in-memory store under one run.
* `OthersKept`, `SameFiles` — the rows of other vaults stay, the stores give the
  same files.
* `FitsSchema` — an op names no id of another vault, breaks no constraint, and brings what the
  columns take.
* `Sound` — what every state of such a run satisfies.

## Main results

* `isolated_of_fitsSchema` — in runs of such ops both properties hold.
-/

namespace ObsidianSync

/-- A database and an in-memory store. -/
structure Stores where
  database : Database
  memory : Store

/-- What the run does to both: an op, or the write of a blob's state. -/
inductive StoresEvent
  | process (now : Time) (uuid : Uuid) (op : FileOp) (userId : Option String)
  | saveBlob (blob : BlobRecord)

/-- Both stores after an event. -/
def storesStep (types : SqlTypes) (P : Platform) (st : Stores) : StoresEvent → Stores
  | .process now uuid op userId =>
    { database := (st.database.process types P now uuid op userId).2
      memory := (process P now uuid op userId st.memory).2 }
  | .saveBlob blob =>
    { database := { st.database with blobs := st.database.blobs.set blob }
      memory := st.memory.saveBlob blob }

/-- **Isolation**: an op of one vault changes no row of `files` of another. -/
def OthersKept (types : SqlTypes) (P : Platform) (st : Stores) : StoresEvent → Prop
  | .process now uuid op userId => ∀ row : StoredFile, row.vaultId ≠ op.vaultId →
    (row ∈ (st.database.process types P now uuid op userId).2.files.rows ↔
      row ∈ st.database.files.rows)
  | .saveBlob _ => True

/-- Every `getFile` gives the same on both stores, up to the stamp of the last write. -/
def SameFiles (st : Stores) : Prop :=
  ∀ vaultId fileId, (st.database.getFile vaultId fileId).map StoredFile.unstamped
    = (st.memory.getFile vaultId fileId).map StoredFile.unstamped

/-! ### The condition -/

/-- The op is new, and passes the checks on its device and its payload. -/
def PassesChecks (P : Platform) (op : FileOp) (userId : Option String) (s : Store) : Prop :=
  s.getOpById op.opId = none ∧ checkDevice op userId s = none ∧
    (validatePayload P op s).1.isOk = true

instance (P : Platform) (op : FileOp) (userId : Option String) (s : Store) :
    Decidable (PassesChecks P op userId s) :=
  inferInstanceAs (Decidable (_ ∧ _))

/-- The columns of `files` take what an op brings: a size within `bigint`, an epoch within `int`,
and a path that is not too long for an index. -/
def FitsColumns (types : SqlTypes) (P : Platform) (s : Store) (op : FileOp) : Prop :=
  (op.kind.isContent = true → ∀ size ∈ op.size, size < 2 ^ 63) ∧
  (op.kind = .restore → ∀ row ∈ opRow op s, row.epoch + 1 < 2 ^ 31) ∧
  ∀ raw ∈ placedPath op s, ∀ desired ∈ (normalizePath P raw).toOption,
    ∀ path ∈ (uniquePath P s op.vaultId desired op.fileId).toOption,
      types.indexed (caseFoldPath P path) = true

instance (types : SqlTypes) (P : Platform) (s : Store) (op : FileOp) :
    Decidable (FitsColumns types P s op) :=
  inferInstanceAs (Decidable (_ ∧ _))

/-- The rows an op writes fit into the tables: its file is of its own vault, and where the
create replaces a deleted row it is of the same type; its path is free and the blob it
refers to known; its vault, log entry and conflict id meet the constraints; and the columns
take its values. -/
def FitsTables (types : SqlTypes) (P : Platform) (st : Stores) (uuid : Uuid) (op : FileOp) :
    Prop :=
  (op.kind = .create → ∀ row ∈ st.database.files.rows, row.fileId = op.fileId →
    row.vaultId = op.vaultId ∧ (row.deleted = true → row.type = op.type)) ∧
  ¬ RevivesTakenPath op st.memory ∧
  (op.kind.isContent = true → Known st.database.blobs op.blobRef) ∧
  (syntheticCollab op = true → st.database.getOpByDeviceSeq op.deviceId op.deviceSeq = none) ∧
  (st.database.vaults.get? op.vaultId).isSome = true ∧
  types.jsonb op = true ∧
  st.database.conflicts.get? uuid.1 = none ∧
  FitsColumns types P st.memory op

instance (types : SqlTypes) (P : Platform) (st : Stores) (uuid : Uuid) (op : FileOp) :
    Decidable (FitsTables types P st uuid op) :=
  inferInstanceAs (Decidable (_ ∧ _))

/-- An op fits the schema: its ids are in canonical form, content it relies on is in both
stores or in neither, and, if it passes the checks, its rows fit into the tables. -/
def FitsSchema (types : SqlTypes) (P : Platform) (st : Stores) : StoresEvent → Prop
  | .process _ uuid op userId =>
    CanonicalIds types op userId ∧ ContentInBoth st.database st.memory op ∧
      (PassesChecks P op userId st.memory → FitsTables types P st uuid op)
  | .saveBlob _ => True

instance (types : SqlTypes) (P : Platform) (st : Stores) (e : StoresEvent) :
    Decidable (FitsSchema types P st e) :=
  match e with
  | .process .. => inferInstanceAs (Decidable (_ ∧ _))
  | .saveBlob _ => inferInstanceAs (Decidable True)

/-! ### The invariant -/

/-- What every reachable state of the in-memory store satisfies, and with it the database:
the constraints of the schema, and an open conflict for every file with a record. -/
structure Sound (s : Store) : Prop where
  log : LogInvariant s
  deviceSeqs : DeviceSeqsUnique s.ops
  paths : LivePathsUnique s
  blobs : ∀ file ∈ s.files.rows, Known s.blobs file.blobRef
  hasFile : ∀ conflict ∈ s.conflicts.rows, ∃ file ∈ s.files.rows, file.fileId = conflict.fileId
  frozen : ∀ conflict ∈ s.conflicts.rows, ∀ file ∈ s.files.rows,
    file.fileId = conflict.fileId → truthy file.conflictId = true

/-- The columns of the database take the rows of the in-memory store. -/
def RowsTaken (types : SqlTypes) (s : Store) : Prop :=
  ∀ file ∈ s.files.rows, types.takes file = true

/-- The rows with the id of the op's file are rows of its vault. -/
def OwnRows (op : FileOp) (rows : List StoredFile) : Prop :=
  ∀ row ∈ rows, row.fileId = op.fileId → row.vaultId = op.vaultId

/-! ### One op in memory -/

section Memory

variable {P : Platform} {now : Time} {uuid : Uuid} {op : FileOp} {userId : Option String}
  {s : Store} {applied : Applied}

theorem Sound.of_frame {tx : Store} (h : Sound s) (hframe : Frame s tx)
    (hconflicts : tx.conflicts = s.conflicts) : Sound tx where
  log := h.log.of_frame hframe
  deviceSeqs := by
    rw [hframe.ops]
    exact h.deviceSeqs
  paths := by
    rw [LivePathsUnique, hframe.files]
    exact h.paths
  blobs := by
    rw [hframe.files, hframe.blobs]
    exact h.blobs
  hasFile := by
    rw [hframe.files, hconflicts]
    exact h.hasFile
  frozen := by
    rw [hframe.files, hconflicts]
    exact h.frozen

/-- A file whose content ops are not frozen has no conflict. -/
theorem Sound.noConflict (h : Sound s) {file : StoredFile} (hrow : opRow op s = some file)
    (hfree : truthy file.conflictId = false) :
    ∀ conflict ∈ s.conflicts.rows, conflict.fileId ≠ op.fileId := by
  intro conflict hconflict hid
  have hfile : file.fileId = op.fileId := (Prod.mk.inj (key_of_opRow hrow)).2
  have hfrozen := h.frozen conflict hconflict file (mem_rows_of_opRow hrow) (hfile.trans hid.symm)
  rw [hfree] at hfrozen
  exact absurd hfrozen (by simp)

/-- A file with a conflict is frozen, so that the op on it is a rename or a delete, and its
row keeps the conflict. -/
theorem Sound.keepsConflict (h : Sound s) (ha : Accepted P now uuid op userId s applied)
    (hown : OwnRows op s.files.rows) {conflict : ConflictRecord}
    (hconflict : conflict ∈ s.conflicts.rows) (hid : conflict.fileId = op.fileId) :
    truthy applied.file.conflictId = true := by
  obtain ⟨row, hrow, hrowId⟩ := h.hasFile conflict hconflict
  have hopRow : opRow op s = some row :=
    Table.get?_eq_some_iff.mpr
      ⟨hrow, Prod.ext (hown row hrow (hrowId.trans hid)) (hrowId.trans hid)⟩
  have hfrozen := h.frozen conflict hconflict row hrow hrowId
  have hcontent : op.kind.isContent = false := by
    by_contra hcontent
    have hfree := ha.unguarded.notFrozen (by simpa using hcontent) row hopRow
    rw [hfrozen] at hfree
    exact absurd hfree (by simp)
  have hfile : ∀ {file : StoredFile}, opRow op s = some file → truthy file.conflictId = true := by
    intro file hfile
    rw [hopRow, Option.some.injEq] at hfile
    exact hfile ▸ hfrozen
  cases ha.effect with
  | created kind => simp [kind, OpKind.isContent] at hcontent
  | updated row kind =>
    rcases kind with ⟨kind, -⟩ | kind <;> simp [kind, OpKind.isContent] at hcontent
  | conflicted row kind =>
    rcases kind with ⟨kind, -⟩ | kind <;> simp [kind, OpKind.isContent] at hcontent
  | lostRename row kind => exact hfile row
  | renamed row kind =>
    have hkept := hfile row
    exact hkept
  | deleted row kind =>
    have hkept := hfile row
    exact hkept
  | restored row kind => simp [kind, OpKind.isContent] at hcontent

/-- The conflicts after an op: the old ones, and one of its file, which its row then has. -/
theorem Sound.mem_conflicts (h : Sound s) (ha : Accepted P now uuid op userId s applied)
    {conflict : ConflictRecord} (hconflict : conflict ∈ applied.tx.conflicts.rows) :
    conflict ∈ s.conflicts.rows
      ∨ conflict.fileId = op.fileId ∧ truthy applied.file.conflictId = true := by
  cases ha.effect with
  | created _ _ _ _ conflicts => exact Or.inl (conflicts ▸ hconflict)
  | updated _ _ _ conflicts => exact Or.inl (conflicts ▸ hconflict)
  | @conflicted file tx row kind concurrent conflicts =>
    have hcontent : op.kind.isContent = true := by
      rcases kind with ⟨kind, -⟩ | kind <;> rw [kind] <;> rfl
    have hnone := h.noConflict row (ha.unguarded.notFrozen hcontent file row)
    have hfind : s.conflicts.rows.find? (fun existing => decide (existing.fileId = op.fileId ∧
        existing.kind = (if op.type = .attachment then .attachment else .content) ∧
        existing.oursHash = file.contentHash ∧
        existing.theirsHash = op.contentHash.or op.blobRef ∧ existing.status ≠ .resolved))
        = none := by
      rw [List.find?_eq_none]
      intro existing hmem hsame
      exact hnone existing hmem (by simpa using (decide_eq_true_eq.mp hsame).1)
    have hopened : tx.conflicts = s.conflicts.set (conflictOf uuid op file s).1 := by
      rw [conflicts, conflictOf, Store.createConflict]
      simp only [hfind]
    have hid : (conflictOf uuid op file s).1.conflictId = uuid.1 := by
      rw [conflictOf, Store.createConflict]
      simp only [hfind]
    have hfileId : (conflictOf uuid op file s).1.fileId = op.fileId := by
      rw [conflictOf, Store.createConflict]
      simp only [hfind]
    have hmem : conflict ∈ (s.conflicts.set (conflictOf uuid op file s).1).rows :=
      hopened ▸ hconflict
    rcases Table.mem_set_iff.mp hmem with rfl | ⟨hold, -⟩
    · refine Or.inr ⟨hfileId, ?_⟩
      show truthy (some (conflictOf uuid op file s).1.conflictId) = true
      rw [hid]
      simpa [truthy] using uuid.2
    · exact Or.inl hold
  | lostRename _ _ _ _ conflicts => exact Or.inl (conflicts ▸ hconflict)
  | renamed _ _ _ _ _ _ conflicts => exact Or.inl (conflicts ▸ hconflict)
  | deleted _ _ conflicts => exact Or.inl (conflicts ▸ hconflict)
  | restored _ _ _ _ conflicts => exact Or.inl (conflicts ▸ hconflict)

/-- No logged op has the device and the sequence of an op that passes the checks. -/
theorem Sound.deviceSeq_free (h : Sound s) (hdevice : checkDevice op userId s = none)
    (hcollab : syntheticCollab op = true → s.getOpByDeviceSeq op.deviceId op.deviceSeq = none)
    {logged : StoredOp} (hlogged : logged ∈ s.ops) (hid : logged.deviceId = op.deviceId) :
    logged.deviceSeq ≠ op.deviceSeq := by
  intro hseq
  cases hsynthetic : syntheticCollab op with
  | true =>
    have hnone := hcollab hsynthetic
    rw [Store.getOpByDeviceSeq, List.find?_eq_none] at hnone
    exact hnone logged (List.mem_reverse.mpr hlogged) (by simp [hid, hseq])
  | false =>
    rcases device_of_checkDevice hdevice with ⟨hnone, -⟩ | ⟨device, -, hget, -, hnext⟩
    · rw [opDevice, hsynthetic] at hnone
      simp only [Bool.false_eq_true, if_false] at hnone
      simp [checkDevice, hsynthetic, hnone] at hdevice
    · have hmem : logged.deviceSeq ∈ (deviceOps s device.deviceId).map StoredOp.deviceSeq := by
        refine List.mem_map_of_mem (mem_deviceOps.mpr ⟨hlogged, ?_⟩)
        rw [hid, Table.key_of_get? hget]
      rw [(h.log.devices device (Table.mem_of_get? hget)).deviceSeqs, List.mem_range'_1] at hmem
      omega

/-- The blob of the row an accepted op writes is known. -/
theorem Sound.known_applied (h : Sound s) (ha : Accepted P now uuid op userId s applied)
    (hblob : op.kind.isContent = true → Known s.blobs op.blobRef) :
    Known s.blobs applied.file.blobRef := by
  have hcontent : op.kind = .create ∨ op.kind = .update ∨ op.kind = .restore →
      Known s.blobs op.blobRef := by
    intro hkind
    refine hblob ?_
    rcases hkind with hkind | hkind | hkind <;> rw [hkind] <;> rfl
  have hrow : ∀ {file : StoredFile}, opRow op s = some file → Known s.blobs file.blobRef :=
    fun row => h.blobs _ (mem_rows_of_opRow row)
  cases ha.effect with
  | created kind => exact hcontent (Or.inl kind)
  | updated row kind =>
    refine hcontent ?_
    rcases kind with ⟨kind, -⟩ | kind
    · exact Or.inl kind
    · exact Or.inr (Or.inl kind)
  | conflicted row =>
    have hkept := hrow row
    exact hkept
  | lostRename row => exact hrow row
  | renamed row =>
    have hkept := hrow row
    exact hkept
  | deleted row =>
    have hkept := hrow row
    exact hkept
  | restored row kind => exact (hcontent (Or.inr (Or.inr kind))).or (hrow row)

theorem SqlTypes.takes_iff {types : SqlTypes} {file : StoredFile} :
    types.takes file = true ↔
      (∀ size ∈ file.size, size < 2 ^ 63) ∧ file.epoch < 2 ^ 31 ∧
        types.indexed file.pathNormalized = true := by
  rw [SqlTypes.takes, Bool.and_eq_true, Bool.and_eq_true, decide_eq_true_eq, and_assoc]
  refine and_congr_left fun _ => ?_
  cases file.size <;> simp

/-- The columns take the row an accepted op writes, if they take what it brings. -/
theorem takes_applied {types : SqlTypes} (hrows : RowsTaken types s)
    (heffect : Effect P now uuid op s applied) (hfits : FitsColumns types P s op) :
    types.takes applied.file = true := by
  obtain ⟨hsize, hepoch, hpath⟩ := hfits
  have hrow : ∀ {file : StoredFile}, opRow op s = some file →
      (∀ size ∈ file.size, size < 2 ^ 63) ∧ file.epoch < 2 ^ 31 ∧
        types.indexed file.pathNormalized = true := fun row =>
    SqlTypes.takes_iff.mp (hrows _ (mem_rows_of_opRow row))
  have hplaced : ∀ {raw desired path : String}, placedPath op s = some raw →
      normalizePath P raw = .ok desired →
      uniquePath P s op.vaultId desired op.fileId = .ok path →
      types.indexed (caseFoldPath P path) = true := by
    intro raw desired path hraw hdesired hunique
    exact hpath raw hraw desired (by rw [hdesired]; rfl) path (by rw [hunique]; rfl)
  -- the size of the op, or that of the row
  have hor : ∀ {file : StoredFile}, opRow op s = some file → op.kind.isContent = true →
      ∀ size ∈ op.size.or file.size, size < 2 ^ 63 := by
    intro file row hcontent size hmem
    rcases Option.or_eq_some_iff.mp hmem with hmem | ⟨-, hmem⟩
    · exact hsize hcontent size hmem
    · exact (hrow row).1 size hmem
  rw [SqlTypes.takes_iff]
  cases heffect with
  | created kind dead canonical unique =>
    have hcontent : op.kind.isContent = true := by rw [kind]; rfl
    refine ⟨hsize hcontent, Nat.two_pow_pos 31, hplaced ?_ canonical unique⟩
    unfold placedPath
    rw [kind]
    cases hfile : opRow op s with
    | none => rfl
    | some file => simp [dead file hfile]
  | updated row kind =>
    have hcontent : op.kind.isContent = true := by
      rcases kind with ⟨kind, -⟩ | kind <;> rw [kind] <;> rfl
    exact ⟨hor row hcontent, (hrow row).2⟩
  | conflicted row =>
    have hkept := hrow row
    exact hkept
  | lostRename row => exact hrow row
  | renamed row kind clock_eq wins canonical unique =>
    refine ⟨(hrow row).1, (hrow row).2.1, hplaced ?_ canonical unique⟩
    unfold placedPath
    rw [kind, row, eq_of_requiredPathClock clock_eq]
    simp [wins]
  | deleted row =>
    have hkept := hrow row
    exact hkept
  | restored row kind canonical unique =>
    have hcontent : op.kind.isContent = true := by rw [kind]; rfl
    refine ⟨hor row hcontent, hepoch kind _ row, hplaced ?_ canonical unique⟩
    unfold placedPath
    rw [kind, row]

/-- The rows with the id of the op's file, after the op: the one it wrote. -/
theorem eq_applied_of_fileId (hown : OwnRows op s.files.rows) (ha : Effect P now uuid op s applied)
    (hframe : Frame s applied.tx) {file : StoredFile}
    (hfile : file ∈ (commit now op (opDevice op s) applied).2.files.rows)
    (hid : file.fileId = op.fileId) : file = applied.file := by
  rcases (mem_files_commit (opDevice op s) ha hframe).mp hfile with rfl | ⟨hold, hkey⟩
  · rfl
  · exact absurd (Prod.ext (hown file hold hid) hid) hkey

/-- The columns take the rows after an accepted op. -/
theorem rowsTaken_commit {types : SqlTypes} (hrows : RowsTaken types s)
    (hacc : accepted P now uuid op userId s = some applied) (hfits : FitsColumns types P s op) :
    RowsTaken types (commit now op (opDevice op s) applied).2 := by
  have ha := accepted_spec hacc
  intro file hfile
  rcases (mem_files_commit (opDevice op s) ha.effect ha.frame).mp hfile with rfl | ⟨hold, -⟩
  · exact takes_applied hrows ha.effect hfits
  · exact hrows file hold

/-- What an accepted op of its own vault that fits the tables leaves in memory. -/
theorem Sound.process (h : Sound s) (hown : OwnRows op s.files.rows)
    (hrevive : ¬ RevivesTakenPath op s)
    (hblob : op.kind.isContent = true → Known s.blobs op.blobRef)
    (hcollab : syntheticCollab op = true → s.getOpByDeviceSeq op.deviceId op.deviceSeq = none)
    (hacc : accepted P now uuid op userId s = some applied) :
    Sound (commit now op (opDevice op s) applied).2 := by
  have ha := accepted_spec hacc
  have hprocess : (ObsidianSync.process P now uuid op userId s).2
      = (commit now op (opDevice op s) applied).2 := by rw [process_of_accepted hacc]
  have hfiles : ∀ {file}, file ∈ (commit now op (opDevice op s) applied).2.files.rows ↔
      file = applied.file ∨ (file ∈ s.files.rows ∧ file.key ≠ (op.vaultId, op.fileId)) :=
    mem_files_commit (opDevice op s) ha.effect ha.frame
  have happlied : applied.file.fileId = op.fileId := (Prod.mk.inj (key_of_effect ha.effect)).2
  -- a conflict of the row is the one it is frozen by
  have hconflicts : ∀ {conflict},
      conflict ∈ (commit now op (opDevice op s) applied).2.conflicts.rows →
      conflict ∈ s.conflicts.rows
        ∨ conflict.fileId = op.fileId ∧ truthy applied.file.conflictId = true := by
    intro conflict hconflict
    rw [commit_conflicts] at hconflict
    exact h.mem_conflicts ha hconflict
  constructor
  · have hlog := logInvariant_processStep (P := P) h.log ⟨now, uuid, op, userId⟩
    exact hprocess ▸ hlog
  · rw [commit_ops, ha.frame.ops]
    -- a new op takes a number that its device has not used
    have hfree : ∀ logged ∈ s.ops, logged.deviceId = op.deviceId →
        logged.deviceSeq ≠ op.deviceSeq := fun logged hlogged =>
      h.deviceSeq_free ha.device hcollab hlogged
    intro a hmemA b hmemB hid hseq
    rw [List.mem_append, List.mem_singleton] at hmemA hmemB
    rcases hmemA with hmemA | rfl <;> rcases hmemB with hmemB | rfl
    · exact h.deviceSeqs a hmemA b hmemB hid hseq
    · exact absurd hseq (hfree a hmemA hid)
    · exact absurd hseq.symm (hfree b hmemB hid.symm)
    · rfl
  · have hpaths : LivePathsUnique (serverStep P s (.process now uuid op userId)) :=
      (livePathsUnique_serverStep_iff h.paths _).mpr fun _ => hrevive
    exact hprocess ▸ hpaths
  · intro file hfile
    rw [commit_blobs, ha.frame.blobs]
    rcases hfiles.mp hfile with rfl | ⟨hold, -⟩
    · exact h.known_applied ha hblob
    · exact h.blobs file hold
  · intro conflict hconflict
    rcases hconflicts hconflict with hold | ⟨hid, -⟩
    · obtain ⟨file, hfile, hfileId⟩ := h.hasFile conflict hold
      by_cases hkey : file.key = (op.vaultId, op.fileId)
      · have hopId : file.fileId = op.fileId := (Prod.mk.inj hkey).2
        exact ⟨applied.file, hfiles.mpr (Or.inl rfl), happlied.trans (hopId.symm.trans hfileId)⟩
      · exact ⟨file, hfiles.mpr (Or.inr ⟨hfile, hkey⟩), hfileId⟩
    · exact ⟨applied.file, hfiles.mpr (Or.inl rfl), happlied.trans hid.symm⟩
  · intro conflict hconflict file hfile hfileId
    rcases hconflicts hconflict with hold | ⟨hid, htruthy⟩
    · rcases hfiles.mp hfile with rfl | ⟨hfileOld, -⟩
      · exact h.keepsConflict ha hown hold (hfileId.symm.trans happlied)
      · exact h.frozen conflict hold file hfileOld hfileId
    · rw [eq_applied_of_fileId hown ha.effect ha.frame hfile (hfileId.trans hid)]
      exact htruthy

end Memory

/-! ### One op on both stores -/

section Both

variable {types : SqlTypes} {P : Platform} {now : Time} {uuid : Uuid} {op : FileOp}
  {userId : Option String} {db : Database} {s : Store} {applied : Applied}

/-- A row of one store is, up to its stamp, a row of the other. -/
theorem Agree.mem_database (h : Agree db s) {row : StoredFile} (hrow : row ∈ s.files.rows) :
    ∃ row' ∈ db.files.rows, SameRow row row' := by
  have hmem : row.unstamped ∈ db.files.rows.map StoredFile.unstamped :=
    h.files ▸ List.mem_map_of_mem hrow
  exact List.mem_map.mp hmem

theorem Agree.mem_memory (h : Agree db s) {row' : StoredFile} (hrow : row' ∈ db.files.rows) :
    ∃ row ∈ s.files.rows, SameRow row row' := by
  have hmem : row'.unstamped ∈ s.files.rows.map StoredFile.unstamped :=
    h.files ▸ List.mem_map_of_mem hrow
  obtain ⟨row, hmem, hsame⟩ := List.mem_map.mp hmem
  exact ⟨row, hmem, hsame.symm⟩

theorem SameRow.vaultId {file file' : StoredFile} (h : SameRow file file') :
    file'.vaultId = file.vaultId := by
  rw [h.eq]

theorem Agree.ownRows (h : Agree db s) (hown : OwnRows op db.files.rows) :
    OwnRows op s.files.rows := by
  intro row hrow hid
  obtain ⟨row', hrow', hsame⟩ := h.mem_database hrow
  rw [← hsame.vaultId]
  exact hown row' hrow' (hsame.fileId.trans hid)

/-- Where the op's file has a row, it is the only one with its id. -/
theorem Agree.eq_of_opRow (h : Agree db s) {file : StoredFile} (hrow : opRow op s = some file)
    {row : StoredFile} (hmem : row ∈ db.files.rows) (hid : row.fileId = op.fileId) :
    SameRow file row := by
  obtain ⟨file', hget, hsame⟩ := h.getFile_some hrow
  rw [Database.getFile_eq_find?] at hget
  have hkey : file'.fileId = op.fileId := by
    have := List.find?_some hget
    exact (Prod.mk.inj (decide_eq_true_eq.mp this)).2
  rw [Table.eq_of_key_eq hmem (List.mem_of_find?_eq_some hget) (hid.trans hkey.symm)]
  exact hsame

/-- An accepted op that fits the tables writes a row of its own vault and type. -/
theorem ownRow_of_accepted (h : Agree db s) (heffect : Effect P now uuid op s applied)
    (hcreate : op.kind = .create → ∀ row ∈ db.files.rows, row.fileId = op.fileId →
      row.vaultId = op.vaultId ∧ (row.deleted = true → row.type = op.type))
    {row : StoredFile} (hrow : row ∈ db.files.rows) (hid : row.fileId = op.fileId) :
    row.vaultId = op.vaultId ∧ row.type = applied.file.type := by
  have hown : ∀ {file : StoredFile}, opRow op s = some file →
      row.vaultId = op.vaultId ∧ row.type = file.type := by
    intro file hfile
    have hsame := h.eq_of_opRow hfile hrow hid
    constructor
    · rw [hsame.vaultId]
      exact (Prod.mk.inj (key_of_opRow hfile)).1
    · rw [hsame.eq]
  cases heffect with
  | created kind dead =>
    obtain ⟨hvault, htype⟩ := hcreate kind row hrow hid
    refine ⟨hvault, htype ?_⟩
    obtain ⟨old, hold, hsame⟩ := h.mem_memory hrow
    have holdRow : opRow op s = some old := Table.get?_eq_some_iff.mpr
      ⟨hold, Prod.ext (hsame.vaultId.symm.trans hvault) (hsame.fileId.symm.trans hid)⟩
    rw [hsame.eq]
    exact dead old holdRow
  | updated hfile | conflicted hfile | lostRename hfile | renamed hfile | deleted hfile
  | restored hfile =>
    have hkept := hown hfile
    exact hkept

/-- The path of the row an accepted op writes is free in the database. -/
theorem livePathTaken_applied (h : Agree db s) (hs : Sound s)
    (heffect : Effect P now uuid op s applied) (hrevive : ¬ RevivesTakenPath op s)
    {file' : StoredFile} (hsame : SameRow applied.file file') : db.livePathTaken file' = false := by
  have hfree := (pathTaken_of_effect_iff hs.paths heffect).mpr hrevive
  refine Bool.eq_false_iff.mpr fun htaken => ?_
  rw [Database.livePathTaken, Bool.and_eq_true, Bool.not_eq_true', List.any_eq_true] at htaken
  obtain ⟨hlive, other', hother', hmeets⟩ := htaken
  obtain ⟨hid, hotherLive, hpath⟩ := decide_eq_true_eq.mp hmeets
  obtain ⟨other, hother, hsame'⟩ := h.mem_memory hother'
  rw [hsame.eq] at hlive hid hotherLive hpath
  rw [hsame'.eq] at hid hotherLive hpath
  exact hfree hlive ⟨other, hother, hotherLive, hid, hpath⟩

/-- The statements of the applier find what they need. -/
theorem writableOp_of_fitsTables (h : Agree db s) (hs : Sound s)
    (hids : CanonicalIds types op userId) (hfits : FitsTables types P ⟨db, s⟩ uuid op) :
    WritableOp types db s uuid op (opRow op s) := by
  obtain ⟨-, -, hblob, -, hvault, -, hfresh, -⟩ := hfits
  refine ⟨hids.2.1, fun hcontent => ?_, fun _ hfree row hrow => ?_⟩
  · refine ⟨hids.2.1, hids.2.2.1, hvault, hblob hcontent, ?_⟩
    rw [Store.getConflict, ← h.conflicts]
    exact hfresh
  · refine ⟨?_, ?_, ?_⟩
    · rw [h.blobs]
      exact hs.blobs row (mem_rows_of_opRow hrow)
    · obtain ⟨row', hrow', hsame⟩ := h.mem_database (mem_rows_of_opRow hrow)
      have hid : row'.fileId = op.fileId :=
        hsame.fileId.trans (Prod.mk.inj (key_of_opRow hrow)).2
      rw [← hid, Table.get?_key hrow']
      rfl
    · refine hs.noConflict hrow ?_
      rw [hrow] at hfree
      exact hfree

/-- So do those of the commit. -/
theorem committable_of_fitsTables (h : Agree db s) (hs : Sound s) (hrows : RowsTaken types s)
    (hids : CanonicalIds types op userId) (hfits : FitsTables types P ⟨db, s⟩ uuid op)
    (ha : Accepted P now uuid op userId s applied) {file' : StoredFile}
    (hsame : SameRow applied.file file') :
    Committable types db op (opDevice op s) file' := by
  obtain ⟨hcreate, hrevive, -, hcollab, hvault, hpayload, -, hcolumns⟩ := hfits
  obtain ⟨hopId, hvaultId, hfileId, hdeviceId, -⟩ := hids
  refine ⟨hopId, hvaultId, hfileId, ?_, hvault, ?_, ?_, ?_, ?_, ?_, hpayload⟩
  · intro d hd
    rw [Option.mem_def, opDevice] at hd
    split at hd
    · simp at hd
    next hsynthetic =>
    have hid : d.deviceId = op.deviceId := Table.key_of_get? hd
    rw [hid]
    refine ⟨hdeviceId (Bool.eq_false_iff.mpr hsynthetic), ?_⟩
    rw [h.devices]
    exact hd
  · rw [← key_of_effect ha.effect]
    exact Prod.ext hsame.vaultId hsame.fileId
  · intro row hrow hid
    rw [show file'.type = applied.file.type by rw [hsame.eq]]
    exact ownRow_of_accepted h ha.effect hcreate hrow hid
  · exact livePathTaken_applied h hs ha.effect hrevive hsame
  · rw [hsame.eq]
    exact takes_applied hrows ha.effect hcolumns
  · rw [h.ops]
    intro logged hlogged
    refine ⟨?_, ?_, ?_⟩
    · rintro ⟨hlvault, hseq⟩
      obtain ⟨vault, hget⟩ := Option.isSome_iff_exists.mp hvault
      have hlt := (hs.log.numbered op.vaultId).seq_lt (mem_vaultOps.mpr ⟨hlogged, hlvault⟩)
      rw [hget, Option.map_some, Option.some.injEq] at hseq
      rw [h.seqs op.vaultId vault hget, hseq] at hlt
      exact absurd hlt (lt_irrefl _)
    · exact Store.getOpById_eq_none_iff.mp ha.fresh logged hlogged
    · rintro ⟨hid, hseq⟩
      refine hs.deviceSeq_free ha.device (fun hsynthetic => ?_) hlogged hid hseq
      rw [← h.getOpByDeviceSeq hs.deviceSeqs]
      exact hcollab hsynthetic

/-- Validation writes content only. -/
theorem validatePayload_frame (P : Platform) (op : FileOp) (s : Store) :
    Frame s (validatePayload P op s).2 ∧ (validatePayload P op s).2.conflicts = s.conflicts := by
  rcases hvalid : validatePayload P op s with ⟨e | u, tx⟩
  · rcases validatePayload_error hvalid with rfl | ⟨rfl, -⟩
    · exact ⟨Frame.refl _, rfl⟩
    · exact frame_checkedContent op s
  · rw [(validatePayload_ok hvalid).2]
    exact frame_checkedContent op s

/-- Content does not matter to the agreement. -/
theorem Agree.content (h : Agree db s) {tx : Store} (hframe : Frame s tx)
    (hconflicts : tx.conflicts = s.conflicts)
    (content : Table (Prod.fst : String × Bytes → String)) :
    Agree { db with noteContent := content } tx where
  devices := h.devices.trans hframe.devices.symm
  roles := h.roles.trans hframe.roles.symm
  files := by
    rw [hframe.files]
    exact h.files
  ops := h.ops.trans hframe.ops.symm
  blobs := h.blobs.trans hframe.blobs.symm
  conflicts := h.conflicts.trans hconflicts.symm
  seqs := by
    intro vaultId vault hvault
    rw [hframe.nextSeq]
    exact h.seqs vaultId vault hvault

theorem WritableOp.frame {file : Option StoredFile} (h : WritableOp types db s uuid op file)
    {tx : Store} (hconflicts : tx.conflicts = s.conflicts)
    (content : Table (Prod.fst : String × Bytes → String)) :
    WritableOp types { db with noteContent := content } tx uuid op file where
  vaultId := h.vaultId
  content := fun hcontent => by
    obtain ⟨hvaultId, hfileId, hvault, hblob, hfresh⟩ := h.content hcontent
    refine ⟨hvaultId, hfileId, hvault, hblob, ?_⟩
    rw [Store.getConflict, hconflicts]
    exact hfresh
  row := fun hcontent hfree row hrow => by
    obtain ⟨hblob, hstored, hnone⟩ := h.row hcontent hfree row hrow
    refine ⟨hblob, hstored, ?_⟩
    rw [hconflicts]
    exact hnone

/-- The applier leaves what the commit needs. -/
theorem Committable.of_applies {db' : Database} {device : Option StoredDevice}
    {file file' : StoredFile} (hc : Committable types db op device file) (h : Agree db s)
    (happlies : Applies db applied file' db') (hframe : Frame s applied.tx) :
    Committable types db' op device file := by
  have hdevices : db'.devices = db.devices := by
    rw [happlies.agree.devices, hframe.devices, h.devices]
  have hpath : db'.livePathTaken file = db.livePathTaken file := by
    rw [Database.livePathTaken, happlies.files, Database.livePathTaken]
  constructor
  · exact hc.opId
  · exact hc.vaultId
  · exact hc.fileId
  · rw [hdevices]
    exact hc.deviceId
  · rw [happlies.vaults]
    exact hc.vault
  · exact hc.key
  · rw [happlies.files]
    exact hc.own
  · rw [hpath]
    exact hc.path
  · exact hc.takes
  · rw [happlies.fileOps, happlies.vaults]
    exact hc.logged
  · exact hc.payload

/-- What an event may do to the files of the database: write one row of the op's vault. -/
def WritesOwn (op : FileOp) (db db' : Database) : Prop :=
  db'.files = db.files ∨ OwnRows op db.files.rows ∧
    ∃ row : StoredFile, row.key = (op.vaultId, op.fileId) ∧ db'.files = db.files.set row

/-- **Ops that fit the schema keep the stores in agreement**, and write in the database a
row of their own vault at most. -/
theorem agree_process (h : Agree db s) (hs : Sound s) (hrows : RowsTaken types s)
    (hfits : FitsSchema types P ⟨db, s⟩ (.process now uuid op userId)) :
    Agree (db.process types P now uuid op userId).2 (process P now uuid op userId s).2 ∧
      Sound (process P now uuid op userId s).2 ∧
      RowsTaken types (process P now uuid op userId s).2 ∧
      WritesOwn op db (db.process types P now uuid op userId).2 := by
  obtain ⟨hids, hcontent, hpasses⟩ := hfits
  -- an op that memory does not accept leaves both files as they were
  have hunaccepted : accepted P now uuid op userId s = none →
      ∀ db' : Database, (∃ content, db' = { db with noteContent := content }) →
        Agree db' (process P now uuid op userId s).2 ∧ Sound (process P now uuid op userId s).2 ∧
          RowsTaken types (process P now uuid op userId s).2 ∧ WritesOwn op db db' := by
    rintro hnone db' ⟨content, rfl⟩
    obtain ⟨hframe, hconflicts⟩ := frame_of_not_accepted hnone
    refine ⟨h.content hframe hconflicts content, hs.of_frame hframe hconflicts, ?_, Or.inl rfl⟩
    rw [RowsTaken, hframe.files]
    exact hrows
  have hknown : (postgres types now uuid).getOpById op.opId db
      = some (s.getOpById op.opId, db) := by
    rw [← h.getOpById]
    simp only [postgres, hids.1]
    rfl
  unfold Database.process OpDataStore.process
  rw [bind_of_eq hknown]
  cases hfresh : s.getOpById op.opId with
  | some existing =>
    refine hunaccepted ?_ db ⟨db.noteContent, rfl⟩
    simp [accepted, hfresh]
  | none =>
    simp only [bind_of_eq (checkDevice_postgres h hs.deviceSeqs hids), deviceOutcome]
    cases hdevice : checkDevice op userId s with
    | some answer =>
      refine hunaccepted ?_ db ⟨db.noteContent, rfl⟩
      simp [accepted, hdevice]
    | none =>
      obtain ⟨content, hvalid⟩ : ∃ content, (postgres types now uuid).validatePayload P op db
          = some ((validatePayload P op s).1, { db with noteContent := content }) :=
        validatePayload_postgres h hcontent
      obtain ⟨hframe, hconflicts⟩ := validatePayload_frame P op s
      simp only [bind_of_eq hvalid]
      rcases hpayload : validatePayload P op s with ⟨e | u, tx⟩
      · have hnone : accepted P now uuid op userId s = none := by
          simp [accepted, hpayload]
        cases e with
        | sync error => exact hunaccepted hnone { db with noteContent := content } ⟨content, rfl⟩
        | path error => exact hunaccepted hnone db ⟨db.noteContent, rfl⟩
      · rw [hpayload] at hframe hconflicts
        have hpass : PassesChecks P op userId s := ⟨hfresh, hdevice, by rw [hpayload]; rfl⟩
        have hagree : Agree { db with noteContent := content } tx :=
          h.content hframe hconflicts content
        have hrow : tx.getFile op.vaultId op.fileId = opRow op s := hframe.getFile _ _
        have hread : (postgres types now uuid).getFile op.vaultId op.fileId
            { db with noteContent := content }
              = some (db.getFile op.vaultId op.fileId, { db with noteContent := content }) := by
          simp only [postgres, hids.2.1, hids.2.2.1]
          rfl
        have happly := applyOp_postgres (P := P) now hagree
          ((writableOp_of_fitsTables h hs hids (hpasses hpass)).frame hconflicts content)
          (h.getFile op.vaultId op.fileId)
        simp only [bind_of_eq hread]
        cases hres : applyOp P now uuid op (opRow op s) tx with
        | error e =>
          have hnone : accepted P now uuid op userId s = none := by
            simp [accepted, hpayload, hrow, hres, Except.toOption]
          rw [hres] at happly
          simp only [bind_of_eq happly]
          cases e with
          | sync error => exact hunaccepted hnone { db with noteContent := content } ⟨content, rfl⟩
          | path error => exact hunaccepted hnone db ⟨db.noteContent, rfl⟩
        | ok applied =>
          have hacc : accepted P now uuid op userId s = some applied := by
            simp [accepted, hfresh, hdevice, hpayload, hrow, hres, Except.toOption]
          rw [hres] at happly
          obtain ⟨file', db', happly, happlies⟩ := happly
          have ha := accepted_spec hacc
          have hfits := hpasses hpass
          have happlies' : Applies db applied file' db' :=
            ⟨happlies.same, happlies.agree, happlies.vaults, happlies.files, happlies.fileOps⟩
          have hcommittable : Committable types db op (opDevice op s) file' :=
            committable_of_fitsTables h hs hrows hids hfits ha happlies.same
          have hcommit := hcommittable.of_applies h happlies' ha.frame
          obtain ⟨ack, db'', hdone, hagree', hfiles⟩ :=
            commit_postgres now uuid happlies.agree happlies.same hcommit
          simp only [bind_of_eq happly, bind_of_eq hdone]
          rw [process_of_accepted hacc]
          have hown : OwnRows op db.files.rows := fun row hrow hid =>
            (ownRow_of_accepted h ha.effect hfits.1 hrow hid).1
          refine ⟨hagree', ?_, rowsTaken_commit hrows hacc hfits.2.2.2.2.2.2.2,
            Or.inr ⟨hown, _, ?_, hfiles.trans (by rw [happlies.files])⟩⟩
          · refine hs.process (h.ownRows hown) hfits.2.1 ?_ ?_ hacc
            · rw [← h.blobs]
              exact hfits.2.2.1
            · rw [← h.getOpByDeviceSeq hs.deviceSeqs]
              exact hfits.2.2.2.1
          · rw [← key_of_effect ha.effect]
            exact Prod.ext happlies.same.vaultId happlies.same.fileId

/-- A write of a blob's state keeps both. -/
theorem agree_saveBlob (h : Agree db s) (hs : Sound s) (blob : BlobRecord) :
    Agree { db with blobs := db.blobs.set blob } (s.saveBlob blob) ∧ Sound (s.saveBlob blob) := by
  have hknown : ∀ {ref}, Known s.blobs ref → Known (s.blobs.set blob) ref := by
    intro ref href htruthy
    rw [Table.get?_set]
    split
    · rfl
    · exact href htruthy
  refine ⟨⟨h.devices, h.roles, h.files, h.ops, congrArg (Table.set · blob) h.blobs, h.conflicts,
    h.seqs⟩, ⟨?_, hs.deviceSeqs, hs.paths, fun file hfile => hknown (hs.blobs file hfile),
    hs.hasFile, hs.frozen⟩⟩
  exact ⟨fun vaultId => ⟨(hs.log.numbered vaultId).seqs, (hs.log.numbered vaultId).nextSeq⟩,
    hs.log.distinct, hs.log.payload,
    fun device hdevice =>
      ⟨(hs.log.devices device hdevice).vaultId, (hs.log.devices device hdevice).deviceSeqs,
        (hs.log.devices device hdevice).increasing⟩,
    hs.log.ordinary⟩

/-- What writes a row of the op's vault keeps the rows of the others. -/
theorem WritesOwn.othersKept {db' : Database} (h : WritesOwn op db db') {row : StoredFile}
    (hvault : row.vaultId ≠ op.vaultId) : row ∈ db'.files.rows ↔ row ∈ db.files.rows := by
  rcases h with hsame | ⟨hown, written, hkey, hset⟩
  · rw [hsame]
  · obtain ⟨hwrittenVault, hwrittenId⟩ := Prod.mk.inj hkey
    rw [hset, Table.mem_set_iff]
    constructor
    · rintro (rfl | ⟨hold, -⟩)
      · exact absurd hwrittenVault hvault
      · exact hold
    · intro hold
      exact Or.inr ⟨hold, fun hid => hvault (hown row hold (hid.trans hwrittenId))⟩

end Both

/-! ### Runs -/

/-- Two stores before the first op, with the same devices, roles and blobs. -/
structure NewStores (st : Stores) : Prop where
  devices : st.database.devices = st.memory.devices
  roles : st.database.roles = st.memory.roles
  blobs : st.database.blobs = st.memory.blobs
  vaults : ∀ vault ∈ st.database.vaults.rows, vault.2 = 1
  databaseFiles : st.database.files = Table.empty
  databaseOps : st.database.fileOps = Table.empty
  databaseConflicts : st.database.conflicts = Table.empty
  files : st.memory.files = Table.empty
  conflicts : st.memory.conflicts = Table.empty
  log : FreshLog st.memory

section Runs

variable {types : SqlTypes} {P : Platform}

theorem NewStores.agree {st : Stores} (h : NewStores st) : Agree st.database st.memory where
  devices := h.devices
  roles := h.roles
  files := by rw [h.databaseFiles, h.files]; rfl
  ops := by rw [h.databaseOps, h.log.ops]; rfl
  blobs := h.blobs
  conflicts := by rw [h.databaseConflicts, h.conflicts]
  seqs := by
    intro vaultId vault hvault
    rw [h.vaults vault (Table.mem_of_get? hvault), Store.nextSeq, h.log.seqs]
    rfl

theorem NewStores.sound {st : Stores} (h : NewStores st) : Sound st.memory where
  log := h.log.logInvariant
  deviceSeqs := by
    rw [h.log.ops]
    exact fun a ha => absurd ha List.not_mem_nil
  paths := by
    rw [LivePathsUnique, h.files]
    exact fun f hf => absurd hf List.not_mem_nil
  blobs := by
    rw [h.files]
    exact fun f hf => absurd hf List.not_mem_nil
  hasFile := by
    rw [h.conflicts]
    exact fun c hc => absurd hc List.not_mem_nil
  frozen := by
    rw [h.conflicts]
    exact fun c hc => absurd hc List.not_mem_nil

/-- What the stores of a run satisfy. -/
structure InStep (types : SqlTypes) (st : Stores) : Prop where
  agree : Agree st.database st.memory
  sound : Sound st.memory
  taken : RowsTaken types st.memory

theorem inStep_storesStep {st : Stores} {e : StoresEvent} (h : InStep types st)
    (he : FitsSchema types P st e) : InStep types (storesStep types P st e) := by
  cases e with
  | process now uuid op userId =>
    obtain ⟨hagree, hsound, htaken, -⟩ := agree_process h.agree h.sound h.taken he
    exact ⟨hagree, hsound, htaken⟩
  | saveBlob blob =>
    obtain ⟨hagree, hsound⟩ := agree_saveBlob h.agree h.sound blob
    exact ⟨hagree, hsound, h.taken⟩

/-- **Isolation of the vaults**: where every op of a run names ids of its own vault and
breaks no constraint of the schema, no op changes a row of another vault, and the database
gives the files the in-memory store gives. -/
theorem isolated_of_fitsSchema (types : SqlTypes) (P : Platform) {st : Stores} (hst : NewStores st)
    {es : List StoresEvent}
    (hes : Run.EachStep (storesStep types P) (FitsSchema types P) st es) :
    Run.EachStep (storesStep types P) (OthersKept types P) st es ∧
      Run.Throughout (storesStep types P) SameFiles st es := by
  have hnone : RowsTaken types st.memory := by
    rw [RowsTaken, hst.files]
    exact fun file hfile => absurd hfile List.not_mem_nil
  have hst : InStep types st := ⟨hst.agree, hst.sound, hnone⟩
  constructor
  · refine Run.eachStep_of_invariant (fun _ _ h he => inStep_storesStep h he) ?_ hst hes
    intro st e h he
    cases e with
    | process now uuid op userId =>
      intro row hvault
      exact (agree_process h.agree h.sound h.taken he).2.2.2.othersKept hvault
    | saveBlob blob => trivial
  · exact (Run.throughout_of_invariant (fun _ _ h he => inStep_storesStep h he) hst hes).mono
      fun _ h => h.agree.getFile

end Runs

/-! ### Two vaults -/

/-- The digits of a uuid in groups of four, between which a hyphen may stand. -/
def uuidDigits : ℕ → List Char → Option (List Char)
  | 0, cs => if cs.isEmpty then some [] else none
  | groups + 1, a :: b :: c :: d :: rest =>
    if [a, b, c, d].all fun digit => hexDigits.contains digit.toLower then
      let rest := if groups ≠ 0 ∧ rest.head? = some '-' then rest.drop 1 else rest
      (uuidDigits groups rest).map ([a, b, c, d].map Char.toLower ++ ·)
    else none
  | _ + 1, _ => none

/-- The form PostgreSQL gives a uuid back in. -/
def canonicalUuid (digits : List Char) : String :=
  String.ofList (digits.take 8 ++ '-' :: (digits.drop 8).take 4 ++
    '-' :: (digits.drop 12).take 4 ++ '-' :: (digits.drop 16).take 4 ++ '-' :: digits.drop 20)

/-- The uuid a text stands for; it may be in braces. -/
def parseUuid (text : String) : Option String :=
  let cs := text.toList
  let body :=
    if cs.head? = some '\x7b' ∧ cs.getLast? = some '\x7d' then (cs.drop 1).dropLast else cs
  (uuidDigits 8 body).map canonicalUuid

/-- The columns of PostgreSQL.  An index surely takes a path of at most 2000 bytes. -/
def sampleTypes : SqlTypes where
  uuid := parseUuid
  jsonb op := (op.inlineText.toList ++ op.newPath.toList ++ op.contentHash.toList ++
    op.blobRef.toList ++ [op.opId, op.deviceId, op.fileId, op.vaultId]).all fun text =>
      text.toList.all (· ≠ '\x00')
  indexed path := path.utf8ByteSize ≤ 2000

example : parseUuid "\x7bF0000000-0000-4000-8000-000000000001\x7d"
    = some "f0000000-0000-4000-8000-000000000001" := by decide +kernel

/-- A registered device. -/
def sampleDevice (deviceId vaultId : String) : StoredDevice :=
  { deviceId, userId := "u", vaultId, lastDeviceSeq := 0, lastSeq := 0, revoked := false }

/-- A vault, its device, and a note of it. -/
def sampleVault : String × String × String :=
  ("a0000000-0000-4000-8000-000000000001", "d0000000-0000-4000-8000-000000000001",
    "f0000000-0000-4000-8000-000000000001")

/-- Another vault, its device, and a note of it. -/
def otherVault : String × String × String :=
  ("a0000000-0000-4000-8000-000000000002", "d0000000-0000-4000-8000-000000000003",
    "f0000000-0000-4000-8000-000000000002")

/-- The devices of the two vaults. -/
def sampleDevices : Table StoredDevice.deviceId :=
  (Table.empty.set (sampleDevice sampleVault.2.1 sampleVault.1)).set
    (sampleDevice otherVault.2.1 otherVault.1)

/-- Both stores with the two vaults and no files. -/
def sampleStores : Stores where
  database :=
    { vaults := (Table.empty.set (sampleVault.1, 1)).set (otherVault.1, 1)
      devices := sampleDevices }
  memory := { devices := sampleDevices }

/-- What `gen_random_uuid()` gives. -/
def sampleConflictId : Uuid := ⟨"c0000000-0000-4000-8000-000000000001", by decide⟩

/-- A note of the first vault. -/
def firstCreate : StoresEvent :=
  .process 1 sampleConflictId
    { sampleContentOp .create "e0000000-0000-4000-8000-000000000001" sampleVault.2.1
        sampleVault.2.2 1 (some "a.md") (sampleVV sampleVault.2.1 1) "one" with
      vaultId := sampleVault.1 } none

/-- A create of the second vault, under the given id. -/
def secondCreateOp (fileId : String) : FileOp :=
  { sampleContentOp .create "e0000000-0000-4000-8000-000000000002" otherVault.2.1 fileId 1
      (some "b.md") (sampleVV otherVault.2.1 1) "two" with
    vaultId := otherVault.1 }

/-- A note of the second vault, under the given id. -/
def secondCreate (fileId : String) : StoresEvent :=
  .process 2 sampleConflictId (secondCreateOp fileId) none

theorem newStores_sampleStores : NewStores sampleStores := by
  have hids : ∀ device ∈ sampleDevices.rows,
      device.lastDeviceSeq = 0 ∧ device.deviceId.toList.head? = some 'd' := by decide
  refine ⟨rfl, rfl, rfl, by decide, rfl, rfl, rfl, rfl, rfl, rfl, rfl,
    fun device hmem => (hids device hmem).1, ?_⟩
  rintro device hmem ⟨fileId, hid⟩
  have hhead := (hids device hmem).2
  simp [hid] at hhead

/-- Notes under ids of their own vaults leave each other alone. -/
theorem isolated_ownIds :
    Run.EachStep (storesStep sampleTypes samplePlatform) (OthersKept sampleTypes samplePlatform)
      sampleStores [firstCreate, secondCreate otherVault.2.2] ∧
    Run.Throughout (storesStep sampleTypes samplePlatform) SameFiles sampleStores
      [firstCreate, secondCreate otherVault.2.2] :=
  isolated_of_fitsSchema sampleTypes samplePlatform newStores_sampleStores (by decide +kernel)

/-- A create of the second vault under the id of the first vault's note overwrites it. -/
theorem not_isolated_foreignCreate :
    ¬ Run.EachStep (storesStep sampleTypes samplePlatform)
      (OthersKept sampleTypes samplePlatform) sampleStores
      [firstCreate, secondCreate sampleVault.2.2] := by
  rintro ⟨-, hkept, -⟩
  have hlost : ∃ row ∈ (storesStep sampleTypes samplePlatform sampleStores
      firstCreate).database.files.rows, row.vaultId ≠ otherVault.1 ∧
      row ∉ ((storesStep sampleTypes samplePlatform sampleStores firstCreate).database.process
        sampleTypes samplePlatform 2 sampleConflictId (secondCreateOp sampleVault.2.2)
          none).2.files.rows := by
    decide +kernel
  obtain ⟨row, hrow, hvault, hgone⟩ := hlost
  exact hgone ((hkept row hvault).mpr hrow)

end ObsidianSync
