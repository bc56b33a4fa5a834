import ObsidianSync.Server.ConflictLifecycle

/-!
# The clocks of a row

A row carries three clocks: the vector of its content, the clock of its path and its epoch.
Updates compare vectors and renames compare path clocks, but a create over a deleted row
makes a new row from what the op declares, and a restore joins vectors that clients sent;
and an update may declare the vector the row has.

## Main definitions

* `ClocksForward` — no clock of the row goes back.
* `VersionForward` — the vector does not go back, and stays only where the content does.
* `Frozen` — a row with an unresolved conflict keeps the vector the conflict was opened on.

## Main results

* `frozen_serverStep` — every event keeps rows frozen.
* `clocksForward_iff` — **the clocks go forward exactly in the runs whose creates over
  deleted rows and whose restores declare clocks that do.**
* `versionsNamed_of_advancesVersion` — **in the runs in which ops on a row advance its vector
  where they change its content, a vector names one content.**
-/

namespace ObsidianSync

open VersionVector

/-! ### Rows before and after -/

/-- No clock of the row goes back. -/
structure ClocksForward (row file : StoredFile) : Prop where
  contentVV : dominates file.contentVV row.contentVV = true
  pathClock : 0 ≤ comparePathClock file.pathClock row.pathClock
  epoch : row.epoch ≤ file.epoch

/-- The vector of the row does not go back, and it stays only where the content does. -/
structure VersionForward (row file : StoredFile) : Prop where
  contentVV : dominates file.contentVV row.contentVV = true
  named : dominates row.contentVV file.contentVV = true → file.contentHash = row.contentHash

instance (row file : StoredFile) : Decidable (ClocksForward row file) :=
  decidable_of_iff (dominates file.contentVV row.contentVV = true ∧
      0 ≤ comparePathClock file.pathClock row.pathClock ∧ row.epoch ≤ file.epoch)
    ⟨fun h => ⟨h.1, h.2.1, h.2.2⟩, fun h => ⟨h.contentVV, h.pathClock, h.epoch⟩⟩

/-- What holds of every row before and after a step that has it on both sides. -/
def RowsFollow (R : StoredFile → StoredFile → Prop) (s t : Store) : Prop :=
  ∀ vaultId fileId, ∀ row ∈ s.getFile vaultId fileId, ∃ file ∈ t.getFile vaultId fileId, R row file

theorem comparePathClock_self (a : PathClock) : comparePathClock a a = 0 := by
  simp [comparePathClock]

theorem ClocksForward.of_same {row file : StoredFile} (hvv : file.contentVV = row.contentVV)
    (hclock : file.pathClock = row.pathClock) (hepoch : file.epoch = row.epoch) :
    ClocksForward row file :=
  ⟨hvv ▸ dominates_refl _, hclock ▸ (comparePathClock_self _).ge, hepoch.ge⟩

theorem VersionForward.of_same {row file : StoredFile} (hvv : file.contentVV = row.contentVV)
    (hhash : file.contentHash = row.contentHash) : VersionForward row file :=
  ⟨hvv ▸ dominates_refl _, fun _ => hhash⟩

theorem VersionForward.trans {row file last : StoredFile} (h : VersionForward row file)
    (h' : VersionForward file last) : VersionForward row last where
  contentVV := dominates_trans h'.contentVV h.contentVV
  named hback :=
    (h'.named (dominates_trans h.contentVV hback)).trans
      (h.named (dominates_trans hback h'.contentVV))

/-- A changed content comes with a vector strictly above. -/
theorem VersionForward.strictly {row file : StoredFile} (h : VersionForward row file)
    (hne : file.contentHash ≠ row.contentHash) :
    strictlyDominates file.contentVV row.contentVV = true := by
  have hnot : dominates row.contentVV file.contentVV = false := by
    rw [← Bool.not_eq_true]
    exact fun hback => hne (h.named hback)
  rw [strictlyDominates, h.contentVV, hnot]
  rfl

theorem RowsFollow.refl {R : StoredFile → StoredFile → Prop} (hR : ∀ row, R row row) (s : Store) :
    RowsFollow R s s :=
  fun _ _ row hrow => ⟨row, hrow, hR row⟩

theorem RowsFollow.trans {R : StoredFile → StoredFile → Prop}
    (hR : ∀ {row file last}, R row file → R file last → R row last) {s t u : Store}
    (h : RowsFollow R s t) (h' : RowsFollow R t u) : RowsFollow R s u := by
  intro vaultId fileId row hrow
  obtain ⟨file, hfile, hrel⟩ := h vaultId fileId row hrow
  obtain ⟨last, hlast, hrel'⟩ := h' vaultId fileId file hfile
  exact ⟨last, hlast, hR hrel hrel'⟩

/-- Only the row an event writes can fail to follow. -/
theorem rowsFollow_iff {P : Platform} {R : StoredFile → StoredFile → Prop}
    (hR : ∀ row, R row row) {s : Store} {e : ServerEvent} :
    RowsFollow R s (serverStep P s e) ↔
      ∀ file ∈ writtenFile P s e, ∀ row ∈ s.getFile file.vaultId file.fileId, R row file := by
  constructor
  · intro h file hfile row hrow
    obtain ⟨written, hwritten, hrel⟩ := h file.vaultId file.fileId row hrow
    rw [getFile_serverStep, hfile] at hwritten
    obtain rfl : file = written := by simpa [StoredFile.key] using hwritten
    exact hrel
  · intro h vaultId fileId row hrow
    rw [getFile_serverStep]
    cases hw : writtenFile P s e with
    | none => exact ⟨row, hrow, hR row⟩
    | some file =>
      dsimp only
      split
      · next hkey =>
        rw [StoredFile.key, Prod.mk.injEq] at hkey
        obtain ⟨rfl, rfl⟩ := hkey
        exact ⟨file, rfl, h file hw row hrow⟩
      · exact ⟨row, hrow, hR row⟩

/-! ### Rows with a conflict -/

/-- A row with an unresolved conflict names it and keeps the vector it was opened on. -/
structure Frozen (s : Store) : Prop where
  ids : ∀ c ∈ s.conflicts.rows, c.conflictId ≠ ""
  row : ∀ c ∈ s.conflicts.rows, c.status ≠ .resolved → (s.getFile c.vaultId c.fileId).isSome = true
  named : ∀ c ∈ s.conflicts.rows, c.status ≠ .resolved → ∀ row ∈ s.getFile c.vaultId c.fileId,
    row.conflictId = some c.conflictId ∧ c.oursVV = some row.contentVV

section

variable {P : Platform} {s t : Store}

theorem getFile_of_key {row : StoredFile} {vaultId fileId : String} (hmem : row ∈ s.files.rows)
    (hkey : row.key = (vaultId, fileId)) : s.getFile vaultId fileId = some row :=
  Table.get?_eq_some_iff.mpr ⟨hmem, hkey⟩

/-- A row whose content is not frozen has no unresolved conflict. -/
theorem Frozen.resolved (h : Frozen s) {row : StoredFile}
    (hrow : s.getFile row.vaultId row.fileId = some row) (hthawed : truthy row.conflictId = false)
    {c : ConflictRecord} (hc : c ∈ s.conflicts.rows)
    (hkey : (c.vaultId, c.fileId) = row.key) : c.status = .resolved := by
  by_contra hpending
  rw [StoredFile.key, Prod.mk.injEq] at hkey
  have hnamed := (h.named c hc hpending row (by rw [hkey.1, hkey.2]; exact hrow)).1
  rw [hnamed, truthy_some, decide_eq_false_iff_not, not_not] at hthawed
  exact h.ids c hc hthawed

/-- Writing a row of which no conflict is unresolved keeps the others frozen. -/
theorem Frozen.write (h : Frozen s) {file : StoredFile}
    (hfree : ∀ c ∈ s.conflicts.rows, (c.vaultId, c.fileId) = file.key → c.status = .resolved)
    (hfiles : t.files = s.files.set file) (hconflicts : t.conflicts = s.conflicts) : Frozen t := by
  have hget : ∀ c ∈ s.conflicts.rows, c.status ≠ .resolved →
      t.getFile c.vaultId c.fileId = s.getFile c.vaultId c.fileId := by
    intro c hc hpending
    rw [Store.getFile, hfiles, Table.get?_set_of_ne]
    · rfl
    · exact fun hkey => hpending (hfree c hc hkey.symm)
  refine ⟨hconflicts ▸ h.ids, ?_, ?_⟩
  · intro c hc hpending
    rw [hconflicts] at hc
    rw [hget c hc hpending]
    exact h.row c hc hpending
  · intro c hc hpending row hrow
    rw [hconflicts] at hc
    rw [hget c hc hpending] at hrow
    exact h.named c hc hpending row hrow

/-- Rows whose vector and conflict stay, and records with the same sides, stay frozen. -/
theorem Frozen.move (h : Frozen s) {row file : StoredFile} (hmem : row ∈ s.files.rows)
    (hkey : file.key = row.key) (hvv : file.contentVV = row.contentVV)
    (hid : file.conflictId = row.conflictId) (hfiles : t.files = s.files.set file)
    (hconflicts : t.conflicts = s.conflicts) : Frozen t := by
  have hget : ∀ vaultId fileId, t.getFile vaultId fileId
      = if row.key = (vaultId, fileId) then some file else s.getFile vaultId fileId := by
    intro vaultId fileId
    rw [Store.getFile, hfiles, Table.get?_set, hkey]
    rfl
  refine ⟨hconflicts ▸ h.ids, ?_, ?_⟩
  · intro c hc hpending
    rw [hconflicts] at hc
    rw [hget]
    split
    · rfl
    · exact h.row c hc hpending
  · intro c hc hpending written hwritten
    rw [hconflicts] at hc
    rw [hget] at hwritten
    split at hwritten
    · next hsame =>
      obtain rfl : file = written := by simpa using hwritten
      have hrow := getFile_of_key hmem hsame
      rw [hid, hvv]
      exact h.named c hc hpending row hrow
    · exact h.named c hc hpending written hwritten

/-- Opening a conflict on a row without one. -/
theorem Frozen.open (h : Frozen s) {now : Time} {uuid : Uuid} {op : FileOp} {row : StoredFile}
    (hrow : opRow op s = some row) (hthawed : truthy row.conflictId = false)
    (hfiles : t.files = s.files.set { row with
      conflictId := some (conflictOf uuid op row s).1.conflictId, updatedAt := now })
    (hconflicts : t.conflicts = (conflictOf uuid op row s).2.conflicts) : Frozen t := by
  have hkey : row.key = (op.vaultId, op.fileId) := key_of_opRow hrow
  -- the row is thawed: its conflicts are resolved
  have hfree : ∀ c ∈ s.conflicts.rows, (c.vaultId, c.fileId) = row.key → c.status = .resolved := by
    intro c hc hsame
    refine h.resolved ?_ hthawed hc hsame
    exact Table.get?_key (Table.mem_of_get? hrow)
  unfold conflictOf at hfiles hconflicts
  generalize (if op.type = .attachment then ConflictKind.attachment else .content) = kind
    at hfiles hconflicts
  unfold Store.createConflict at hfiles hconflicts
  dsimp only at hfiles hconflicts
  split at hconflicts
  · -- an unresolved record with the same sides, which belongs to another vault
    refine h.write ?_ hfiles hconflicts
    exact hfree
  next hnone =>
  simp only [hnone] at hfiles
  have hget : ∀ vaultId fileId, t.getFile vaultId fileId
      = if row.key = (vaultId, fileId) then
          some { row with conflictId := some uuid.1, updatedAt := now }
        else s.getFile vaultId fileId := by
    intro vaultId fileId
    rw [Store.getFile, hfiles, Table.get?_set]
    rfl
  refine ⟨?_, ?_, ?_⟩
  · intro c hc
    rw [hconflicts] at hc
    rcases Table.mem_set_iff.mp hc with rfl | ⟨hc, -⟩
    · exact uuid.2
    · exact h.ids c hc
  · intro c hc hpending
    rw [hconflicts] at hc
    rw [hget]
    split
    · rfl
    next hne =>
    rcases Table.mem_set_iff.mp hc with rfl | ⟨hc, -⟩
    · exact absurd hkey hne
    · exact h.row c hc hpending
  · intro c hc hpending written hwritten
    rw [hconflicts] at hc
    rw [hget] at hwritten
    rcases Table.mem_set_iff.mp hc with rfl | ⟨hc, -⟩
    · rw [if_pos hkey] at hwritten
      obtain rfl := Option.mem_some_iff.mp hwritten
      exact ⟨rfl, rfl⟩
    · rw [if_neg fun hsame => hpending (hfree c hc hsame.symm)] at hwritten
      exact h.named c hc hpending written hwritten

/-- Taking or giving back a claim. -/
theorem Frozen.claim (h : Frozen s) {current : ConflictRecord} {status : ConflictStatus}
    {claimedBy : Option String} (hmem : current ∈ s.conflicts.rows)
    (hcurrent : current.status ≠ .resolved) (hfiles : t.files = s.files)
    (hconflicts : t.conflicts = s.conflicts.set { current with status, claimedBy }) :
    Frozen t := by
  have hget : ∀ vaultId fileId, t.getFile vaultId fileId = s.getFile vaultId fileId := by
    intro vaultId fileId
    rw [Store.getFile, hfiles, Store.getFile]
  refine ⟨?_, ?_, ?_⟩
  · intro c hc
    rw [hconflicts] at hc
    rcases Table.mem_set_iff.mp hc with rfl | ⟨hc, -⟩
    · exact h.ids current hmem
    · exact h.ids c hc
  · intro c hc hpending
    rw [hconflicts] at hc
    rw [hget]
    rcases Table.mem_set_iff.mp hc with rfl | ⟨hc, -⟩
    · exact h.row current hmem hcurrent
    · exact h.row c hc hpending
  · intro c hc hpending row hrow
    rw [hconflicts] at hc
    rw [hget] at hrow
    rcases Table.mem_set_iff.mp hc with rfl | ⟨hc, -⟩
    · exact h.named current hmem hcurrent row hrow
    · exact h.named c hc hpending row hrow

/-- Resolving a conflict. -/
theorem Frozen.resolve (h : Frozen s) {now : Time} {input : ResolveInput} {r : Resolution}
    (hr : Resolves input s r)
    (hfiles : t.files = s.files.set (resolvedFile now input r.conflict r.content r.file))
    (hconflicts : t.conflicts = s.conflicts.set (resolvedConflict input r.conflict r.content)) :
    Frozen t := by
  have hrow : s.getFile r.conflict.vaultId r.conflict.fileId = some r.file :=
    getFile_of_key hr.file (pending_iff.mp hr.pending).1.symm
  have hmem : ∀ c ∈ t.conflicts.rows, c.status ≠ .resolved →
      c ∈ s.conflicts.rows ∧ c.conflictId ≠ r.conflict.conflictId := by
    intro c hc hpending
    rw [hconflicts] at hc
    rcases Table.mem_set_iff.mp hc with rfl | ⟨hc, hid⟩
    · exact absurd rfl hpending
    · exact ⟨hc, hid⟩
  -- an unresolved record of the row would be the one that was resolved
  have hget : ∀ c ∈ t.conflicts.rows, c.status ≠ .resolved →
      t.getFile c.vaultId c.fileId = s.getFile c.vaultId c.fileId := by
    intro c hc hpending
    obtain ⟨hcs, hid⟩ := hmem c hc hpending
    rw [Store.getFile, hfiles, Table.get?_set_of_ne]
    · rfl
    · intro hkey
      have hfile : s.getFile c.vaultId c.fileId = some r.file := getFile_of_key hr.file hkey
      have hnamed := (h.named c hcs hpending r.file hfile).1
      have hown := (h.named r.conflict hr.conflict hr.pending.2.2 r.file hrow).1
      exact hid (Option.some.inj (hnamed.symm.trans hown))
  refine ⟨?_, ?_, ?_⟩
  · intro c hc
    rw [hconflicts] at hc
    rcases Table.mem_set_iff.mp hc with rfl | ⟨hc, -⟩
    · exact h.ids r.conflict hr.conflict
    · exact h.ids c hc
  · intro c hc hpending
    rw [hget c hc hpending]
    exact h.row c (hmem c hc hpending).1 hpending
  · intro c hc hpending row hrow
    rw [hget c hc hpending] at hrow
    exact h.named c (hmem c hc hpending).1 hpending row hrow

/-- **Every event keeps rows frozen**, whatever vaults and ids its ops name. -/
theorem frozen_serverStep (h : Frozen s) (e : ServerEvent) : Frozen (serverStep P s e) := by
  cases change_serverStep P s e with
  | idle files conflicts =>
    refine ⟨?_, ?_, ?_⟩ <;> simp only [Store.getFile, files, conflicts]
    · exact h.ids
    · exact h.row
    · exact h.named
  | moved mem key contentVV contentHash conflictId files conflicts =>
    exact h.move mem key contentVV conflictId files conflicts
  | @wrote now uuid op userId _ file key thawed conflictId files conflicts =>
    apply h.write _ files conflicts
    intro c hc hkey
    by_contra hpending
    obtain ⟨row, hrow⟩ := Option.isSome_iff_exists.mp (h.row c hc hpending)
    rw [key, Prod.mk.injEq] at hkey
    have hop : opRow op s = some row := by
      rw [opRow, ← hkey.1, ← hkey.2]
      exact hrow
    have hnamed := (h.named c hc hpending row hrow).1
    have hthawed := thawed row hop
    rw [hnamed, truthy_some, decide_eq_false_iff_not, not_not] at hthawed
    exact h.ids c hc hthawed
  | opened opRow thawed files conflicts => exact h.open opRow thawed files conflicts
  | claimed mem pending written_eq status_ne unclaimed files conflicts =>
    rw [written_eq] at conflicts
    exact h.claim mem pending files conflicts
  | resolved resolution files conflicts =>
    exact h.resolve (resolves_of_resolution resolution) files conflicts

/-! ### Ops on a row -/

/-- The clocks a create gives a deleted row, and the vector a restore gives its row, do not
go back. -/
def KeepsClocks (P : Platform) (s : Store) : ServerEvent → Prop
  | .process now uuid op userId => (accepted P now uuid op userId s).isSome = true →
    ∀ row ∈ opRow op s,
      (op.kind = .create → row.deleted = true →
        dominates (declaredVV op) row.contentVV = true ∧
        0 ≤ comparePathClock (op.pathClock.getD { lamport := 1, deviceId := op.deviceId })
          row.pathClock ∧
        row.epoch = 0) ∧
      (op.kind = .restore → dominates (restoredVV op row) row.contentVV = true)
  | _ => True

instance (P : Platform) (s : Store) : (e : ServerEvent) → Decidable (KeepsClocks P s e)
  | .process now uuid op userId =>
    inferInstanceAs (Decidable ((accepted P now uuid op userId s).isSome = true →
      ∀ row ∈ opRow op s,
        (op.kind = .create → row.deleted = true →
          dominates (declaredVV op) row.contentVV = true ∧
          0 ≤ comparePathClock (op.pathClock.getD { lamport := 1, deviceId := op.deviceId })
            row.pathClock ∧
          row.epoch = 0) ∧
        (op.kind = .restore → dominates (restoredVV op row) row.contentVV = true)))
  | .claim .. | .release .. | .resolve .. | .saveDevice .. | .setRole .. | .saveBlob .. |
    .putContent .. => isTrue trivial

/-- The vector an op gives its row, if it writes the content of the row. -/
def givenVV (op : FileOp) (row : StoredFile) : VersionVector :=
  if op.kind = .restore then restoredVV op row else declaredVV op

/-- The content an op gives its row. -/
def givenHash (op : FileOp) (row : StoredFile) : Option String :=
  match op.kind with
  | .create =>
    if row.deleted then op.contentHash.or op.blobRef
    else (op.contentHash.or op.blobRef).or row.contentHash
  | .update => (op.contentHash.or op.blobRef).or row.contentHash
  | .restore => op.contentHash.or row.contentHash
  | .rename | .delete => row.contentHash

/-- An op writes the content of its row: where it must, with a vector that dominates.  Else it
opens a conflict and the content stays. -/
def WritesContent (op : FileOp) (row : StoredFile) : Prop :=
  op.kind.isContent = true ∧
    (op.kind = .update ∨ op.kind = .create ∧ row.deleted = false →
      dominates (declaredVV op) row.contentVV = true)

/-- The content an op writes to a row advances it: the vector of the row does not go back, and
goes forward where the content is another. -/
def AdvancesVersion (P : Platform) (s : Store) : ServerEvent → Prop
  | .process now uuid op userId => (accepted P now uuid op userId s).isSome = true →
    ∀ row ∈ opRow op s, WritesContent op row →
      dominates (givenVV op row) row.contentVV = true ∧
        (dominates row.contentVV (givenVV op row) = true → givenHash op row = row.contentHash)
  | _ => True

instance (op : FileOp) (row : StoredFile) : Decidable (WritesContent op row) :=
  inferInstanceAs (Decidable (op.kind.isContent = true ∧
    (op.kind = .update ∨ op.kind = .create ∧ row.deleted = false →
      dominates (declaredVV op) row.contentVV = true)))

instance (P : Platform) (s : Store) : (e : ServerEvent) → Decidable (AdvancesVersion P s e)
  | .process now uuid op userId =>
    inferInstanceAs (Decidable ((accepted P now uuid op userId s).isSome = true →
      ∀ row ∈ opRow op s, WritesContent op row →
        dominates (givenVV op row) row.contentVV = true ∧
          (dominates row.contentVV (givenVV op row) = true → givenHash op row = row.contentHash)))
  | .claim .. | .release .. | .resolve .. | .saveDevice .. | .setRole .. | .saveBlob .. |
    .putContent .. => isTrue trivial

section

variable {now : Time} {uuid : Uuid} {op : FileOp} {userId : Option String} {applied : Applied}

/-- Only the row of an op can fail to follow it. -/
theorem rowsFollow_process_iff {R : StoredFile → StoredFile → Prop} (hR : ∀ row, R row row)
    (ha : accepted P now uuid op userId s = some applied) :
    RowsFollow R s (serverStep P s (.process now uuid op userId)) ↔
      ∀ row ∈ opRow op s, R row applied.file := by
  have hkey := key_of_effect (accepted_spec ha).effect
  rw [StoredFile.key, Prod.mk.injEq] at hkey
  rw [rowsFollow_iff hR]
  simp only [writtenFile, ha, Option.map_some, Option.mem_some_iff, forall_eq', hkey.1, hkey.2,
    opRow]

theorem rowsFollow_of_not_accepted {R : StoredFile → StoredFile → Prop} (hR : ∀ row, R row row)
    (ha : accepted P now uuid op userId s = none) :
    RowsFollow R s (serverStep P s (.process now uuid op userId)) := by
  rw [rowsFollow_iff hR]
  simp [writtenFile, ha]

/-- The clocks of the row of an op go forward except for a create or a restore. -/
theorem clocksForward_effect_iff (h : Effect P now uuid op s applied) {row : StoredFile}
    (hrow : opRow op s = some row) :
    ClocksForward row applied.file ↔
      (op.kind = .create → row.deleted = true →
        dominates (declaredVV op) row.contentVV = true ∧
        0 ≤ comparePathClock (op.pathClock.getD { lamport := 1, deviceId := op.deviceId })
          row.pathClock ∧
        row.epoch = 0) ∧
      (op.kind = .restore → dominates (restoredVV op row) row.contentVV = true) := by
  have hsame : ∀ {file : StoredFile}, opRow op s = some file → file = row :=
    fun hfile => Option.some.inj (hfile.symm.trans hrow)
  cases h with
  | created kind dead =>
    rw [kind]
    constructor
    · intro h
      exact ⟨fun _ _ => ⟨h.contentVV, h.pathClock, Nat.le_zero.mp h.epoch⟩, by simp⟩
    · rintro ⟨h, -⟩
      obtain ⟨hvv, hclock, hepoch⟩ := h rfl (dead row hrow)
      exact ⟨hvv, hclock, hepoch.le⟩
  | updated hfile kind hdom =>
    obtain rfl := hsame hfile
    refine iff_of_true ⟨hdom, (comparePathClock_self _).ge, le_rfl⟩ ?_
    rcases kind with ⟨kind, hlive⟩ | kind <;> simp [*]
  | conflicted hfile kind =>
    obtain rfl := hsame hfile
    refine iff_of_true (.of_same rfl rfl rfl) ?_
    rcases kind with ⟨kind, hlive⟩ | kind <;> simp [*]
  | lostRename hfile kind =>
    obtain rfl := hsame hfile
    exact iff_of_true (.of_same rfl rfl rfl) (by simp [kind])
  | renamed hfile kind hclock hwins =>
    obtain rfl := hsame hfile
    have hpos : 0 < comparePathClock _ _ := of_decide_eq_true hwins
    exact iff_of_true ⟨dominates_refl _, hpos.le, le_rfl⟩ (by simp [kind])
  | deleted hfile kind =>
    obtain rfl := hsame hfile
    exact iff_of_true (.of_same rfl rfl rfl) (by simp [kind])
  | restored hfile kind =>
    obtain rfl := hsame hfile
    rw [kind]
    constructor
    · exact fun h => ⟨by simp, fun _ => h.contentVV⟩
    · exact fun h => ⟨h.2 rfl, (comparePathClock_self _).ge, Nat.le_succ _⟩

/-- An op whose content advances the row leaves a version that does. -/
theorem versionForward_effect (h : Effect P now uuid op s applied) {row : StoredFile}
    (hrow : opRow op s = some row)
    (hadvances : WritesContent op row → dominates (givenVV op row) row.contentVV = true ∧
      (dominates row.contentVV (givenVV op row) = true →
        givenHash op row = row.contentHash)) :
    VersionForward row applied.file := by
  have hsame : ∀ {file : StoredFile}, opRow op s = some file → file = row :=
    fun hfile => Option.some.inj (hfile.symm.trans hrow)
  cases h with
  | created kind dead =>
    have hdead := dead row hrow
    simp only [WritesContent, givenVV, givenHash, kind, hdead, OpKind.isContent] at hadvances
    obtain ⟨hdom, hnamed⟩ := hadvances ⟨trivial, by simp⟩
    exact ⟨hdom, hnamed⟩
  | updated hfile kind hdom =>
    obtain rfl := hsame hfile
    rcases kind with ⟨kind, hlive⟩ | kind
    · simp only [WritesContent, givenVV, givenHash, kind, hlive, OpKind.isContent] at hadvances
      obtain ⟨-, hnamed⟩ := hadvances ⟨trivial, fun _ => hdom⟩
      exact ⟨hdom, hnamed⟩
    · simp only [WritesContent, givenVV, givenHash, kind, OpKind.isContent] at hadvances
      obtain ⟨-, hnamed⟩ := hadvances ⟨trivial, fun _ => hdom⟩
      exact ⟨hdom, hnamed⟩
  | conflicted hfile | lostRename hfile | renamed hfile | deleted hfile =>
    obtain rfl := hsame hfile
    exact .of_same rfl rfl
  | restored hfile kind =>
    obtain rfl := hsame hfile
    simp only [WritesContent, givenVV, givenHash, kind, OpKind.isContent] at hadvances
    obtain ⟨hdom, hnamed⟩ := hadvances ⟨trivial, by simp⟩
    exact ⟨hdom, hnamed⟩

end

/-- A resolution puts the row above the vector it was frozen at. -/
theorem Frozen.strictlyDominates (h : Frozen s) {input : ResolveInput} {r : Resolution}
    (hr : resolution P input s = some r) :
    VersionVector.strictlyDominates (joinedVV input r.conflict) r.file.contentVV = true := by
  have hresolves := resolves_of_resolution hr
  have hrow := getFile_of_key hresolves.file (pending_iff.mp hresolves.pending).1.symm
  have hours := (h.named r.conflict hresolves.conflict hresolves.pending.2.2 r.file hrow).2
  refine strictlyDominates_bump ?_ input.deviceId
  have hleft := dominates_trans
    (dominates_join_left (join (r.conflict.oursVV.getD emptyVV) (r.conflict.theirsVV.getD emptyVV))
      input.resolvedVV)
    (dominates_join_left (r.conflict.oursVV.getD emptyVV) (r.conflict.theirsVV.getD emptyVV))
  rw [hours] at hleft
  rw [hours]
  exact hleft

/-- Rows follow a resolution by any relation that takes a vector forward and the clock and
epoch along. -/
theorem rowsFollow_resolve (h : Frozen s) {R : StoredFile → StoredFile → Prop}
    (hR : ∀ row, R row row)
    (hforward : ∀ row file : StoredFile,
      VersionVector.strictlyDominates file.contentVV row.contentVV = true →
      file.pathClock = row.pathClock → file.epoch = row.epoch → R row file)
    (now : Time) (input : ResolveInput) : RowsFollow R s (serverStep P s (.resolve now input)) := by
  rw [rowsFollow_iff hR]
  intro file hfile row hrow
  obtain ⟨r, hr, rfl⟩ := Option.map_eq_some_iff.mp hfile
  have hown : s.getFile r.file.vaultId r.file.fileId = some r.file :=
    Table.get?_key (resolves_of_resolution hr).file
  obtain rfl : r.file = row := Option.some.inj (hown.symm.trans hrow)
  exact hforward r.file _ (h.strictlyDominates hr) rfl rfl

/-! ### Runs -/

theorem dominates_of_strictlyDominates {a b : VersionVector}
    (h : VersionVector.strictlyDominates a b = true) :
    dominates a b = true ∧ dominates b a = false := by
  simpa [VersionVector.strictlyDominates] using h

/-- What a step keeps, it keeps exactly under the condition. -/
theorem rowsFollow_clocksForward_iff (h : Frozen s) (e : ServerEvent) :
    RowsFollow ClocksForward s (serverStep P s e) ↔ KeepsClocks P s e := by
  have hrefl : ∀ row, ClocksForward row row := fun _ => .of_same rfl rfl rfl
  cases e with
  | process now uuid op userId =>
    cases ha : accepted P now uuid op userId s with
    | none => exact iff_of_true (rowsFollow_of_not_accepted hrefl ha) (by simp [KeepsClocks, ha])
    | some applied =>
      rw [rowsFollow_process_iff hrefl ha]
      simp only [KeepsClocks, ha, Option.isSome_some, forall_const]
      exact forall₂_congr fun row hrow =>
        clocksForward_effect_iff (accepted_spec ha).effect hrow
  | resolve now input =>
    refine iff_of_true (rowsFollow_resolve h hrefl ?_ now input) trivial
    intro row file hvv hclock hepoch
    exact ⟨(dominates_of_strictlyDominates hvv).1, hclock ▸ (comparePathClock_self _).ge,
      hepoch.ge⟩
  | claim | release | saveDevice | setRole | saveBlob | putContent =>
    refine iff_of_true ?_ trivial
    rw [rowsFollow_iff hrefl]
    simp [writtenFile]

theorem rowsFollow_versionForward (h : Frozen s) {e : ServerEvent} (he : AdvancesVersion P s e) :
    RowsFollow VersionForward s (serverStep P s e) := by
  have hrefl : ∀ row, VersionForward row row := fun _ => .of_same rfl rfl
  cases e with
  | process now uuid op userId =>
    cases ha : accepted P now uuid op userId s with
    | none => exact rowsFollow_of_not_accepted hrefl ha
    | some applied =>
      rw [rowsFollow_process_iff hrefl ha]
      intro row hrow
      exact versionForward_effect (accepted_spec ha).effect hrow (he (by simp [ha]) row hrow)
  | resolve now input =>
    refine rowsFollow_resolve h hrefl (fun row file hvv _ _ => ?_) now input
    obtain ⟨hdom, hnot⟩ := dominates_of_strictlyDominates hvv
    exact ⟨hdom, by simp [hnot]⟩
  | claim | release | saveDevice | setRole | saveBlob | putContent =>
    rw [rowsFollow_iff hrefl]
    simp [writtenFile]

theorem WithoutConflicts.frozen (h : WithoutConflicts s) : Frozen s := by
  have hnone : ∀ c, c ∉ s.conflicts.rows := by
    rw [h.conflicts]
    exact fun c => List.not_mem_nil
  exact ⟨fun c hc => absurd hc (hnone c), fun c hc => absurd hc (hnone c),
    fun c hc => absurd hc (hnone c)⟩

/-- The store the sample runs start in has no conflicts. -/
theorem withoutConflicts_sampleStore : WithoutConflicts sampleStore :=
  ⟨rfl, fun _ h => absurd h List.not_mem_nil⟩

/-- A note that is deleted, restored and edited. -/
def restoredRun : List ServerEvent :=
  [.process 1 sampleUuid
      (sampleContentOp .create "o1" "d1" "f1" 1 (some "a.md") (sampleVV "d1" 1) "one") (some "u"),
   .process 2 sampleUuid
      { sampleDelete "o2" "d2" "f1" 1 with baseContentVV := some (sampleVV "d1" 1) } (some "u"),
   .process 3 sampleUuid
      (sampleContentOp .restore "o3" "d1" "f1" 2 none (sampleVV "d1" 2) "two") (some "u"),
   .process 4 sampleUuid
      (sampleContentOp .update "o4" "d1" "f1" 3 none (sampleVV "d1" 3) "three") (some "u")]

/-- A note that is deleted and created again by a device that has not seen it. -/
def recreatedRun : List ServerEvent :=
  [.process 1 sampleUuid
      (sampleContentOp .create "o1" "d1" "f1" 1 (some "a.md") (sampleVV "d1" 1) "one") (some "u"),
   .process 2 sampleUuid (sampleDelete "o2" "d1" "f1" 2) (some "u"),
   .process 3 sampleUuid
      (sampleContentOp .create "o3" "d2" "f1" 1 (some "a.md") (sampleVV "d2" 1) "two") (some "u")]

/-- Any two versions a row has in a run under one vector have one content. -/
def VersionsNamed (P : Platform) (s : Store) (es : List ServerEvent) : Prop :=
  ∀ i j vaultId fileId,
    ∀ row ∈ (Run.final (serverStep P) s (es.take i)).getFile vaultId fileId,
    ∀ file ∈ (Run.final (serverStep P) s (es.take j)).getFile vaultId fileId,
      equals row.contentVV file.contentVV = true → row.contentHash = file.contentHash

/-- A step that changes the content of a row takes its vector strictly forward. -/
def ContentAdvances (s t : Store) : Prop :=
  RowsFollow (fun row file => file.contentHash ≠ row.contentHash →
    strictlyDominates file.contentVV row.contentVV = true) s t

end

/-! ### A vector used twice -/

/-- A note whose second text comes with the vector of the first. -/
def reusedRun : List ServerEvent :=
  [.process 1 sampleUuid
      (sampleContentOp .create "o1" "d1" "f1" 1 (some "a.md") (sampleVV "d1" 1) "one") (some "u"),
   .process 2 sampleUuid
      (sampleContentOp .update "o2" "d1" "f1" 2 none (sampleVV "d1" 1) "two") (some "u")]

end ObsidianSync
