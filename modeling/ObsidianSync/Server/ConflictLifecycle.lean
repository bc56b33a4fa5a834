import ObsidianSync.Lib.Run
import ObsidianSync.Server.System

/-!
# The lifecycle of a conflict

A conflict is opened by a content op with a concurrent vector, which freezes the
content of its file.  Renames and deletes go on, claims move between devices, and
the device that holds the claim resolves the conflict in the end.  All of them
write the row of the file or the record, and what each writes is said once, by
`Change`.

## Main definitions

* `Pending` — an unresolved conflict of a row.
* `ConflictsNamed` — rows and unresolved conflicts belong to each other.
* `ResolutionRules` — who resolves a conflict, and what is written then.
* `Change` — what an event does to the files and the conflicts.

## Main results

* `change_serverStep` — every event makes one of the changes.
* `conflictInvariant_serverStep` — every event of the vault keeps the invariant.
* `conflictLifecycle_run` — the lifecycle over a run.
-/

namespace ObsidianSync

/-! ### The property -/

/-- The conflict is an unresolved one of the row. -/
def Pending (conflict : ConflictRecord) (file : StoredFile) : Prop :=
  conflict.vaultId = file.vaultId ∧ conflict.fileId = file.fileId ∧ conflict.status ≠ .resolved

/-- A row has at most one unresolved conflict, its `conflictId` names it exactly
when there is one, and until it is resolved the row keeps the side it had when the
conflict was opened. -/
structure ConflictsNamed (s : Store) : Prop where
  atMostOne : ∀ file ∈ s.files.rows, ∀ c ∈ s.conflicts.rows, ∀ d ∈ s.conflicts.rows,
    Pending c file → Pending d file → c = d
  named : ∀ file ∈ s.files.rows, ∀ c ∈ s.conflicts.rows,
    file.conflictId = some c.conflictId ↔ Pending c file
  exists_of_named : ∀ file ∈ s.files.rows, ∀ id, file.conflictId = some id →
    ∃ c ∈ s.conflicts.rows, c.conflictId = id
  ours : ∀ file ∈ s.files.rows, ∀ c ∈ s.conflicts.rows, Pending c file →
    c.oursVV = some file.contentVV ∧ c.oursHash = file.contentHash

/-- The vector is above both sides of the conflict and above what the row had. -/
def AboveBothSides (vv : VersionVector) (c : ConflictRecord) (file : StoredFile) : Prop :=
  VersionVector.strictlyDominates vv (c.oursVV.getD VersionVector.emptyVV) = true ∧
  VersionVector.strictlyDominates vv (c.theirsVV.getD VersionVector.emptyVV) = true ∧
  VersionVector.strictlyDominates vv file.contentVV = true

/-- What one event may do to resolved records and to a row that `resolve` writes:
a resolved record stays as it is; a record becomes resolved through `resolve` by
the device that holds its claim; and the row then gets a vector above both sides
and above the one it had. -/
structure ResolutionRules (s : Store) (e : ServerEvent) (t : Store) : Prop where
  kept : ∀ c ∈ s.conflicts.rows, c.status = .resolved → c ∈ t.conflicts.rows
  byClaimant : ∀ d ∈ t.conflicts.rows, d.status = .resolved → d ∉ s.conflicts.rows →
    ∃ now input, e = .resolve now input ∧ d.resolvedBy = some input.deviceId ∧
      ∃ c ∈ s.conflicts.rows, c.conflictId = d.conflictId ∧ c.status = .claimed ∧
        c.claimedBy = some input.deviceId
  dominates : ∀ now input, e = .resolve now input →
    ∀ file ∈ s.files.rows, ∀ written ∈ t.files.rows, written.key = file.key → written ≠ file →
      ∃ c, s.getConflict input.conflictId = some c ∧ Pending c file ∧
        AboveBothSides written.contentVV c file

/-! ### What an event changes -/

/-- The rows and records after an event, by what it did. -/
inductive Change (P : Platform) (s : Store) : ServerEvent → Store → Prop
  /-- Neither files nor conflicts. -/
  | idle {e : ServerEvent} {t : Store} (files : t.files = s.files)
      (conflicts : t.conflicts = s.conflicts) : Change P s e t
  /-- A row whose content and conflict stay: a rename or a delete. -/
  | moved {now : Time} {uuid : Uuid} {op : FileOp} {userId : Option String} {t : Store}
      {row file : StoredFile} (mem : row ∈ s.files.rows)
      (key : file.key = row.key) (contentVV : file.contentVV = row.contentVV)
      (contentHash : file.contentHash = row.contentHash)
      (conflictId : file.conflictId = row.conflictId)
      (files : t.files = s.files.set file) (conflicts : t.conflicts = s.conflicts) :
      Change P s (.process now uuid op userId) t
  /-- The content of a row without a conflict, or a new row. -/
  | wrote {now : Time} {uuid : Uuid} {op : FileOp} {userId : Option String} {t : Store}
      {file : StoredFile} (key : file.key = (op.vaultId, op.fileId))
      (thawed : ∀ row, opRow op s = some row → truthy row.conflictId = false)
      (conflictId : file.conflictId = none)
      (files : t.files = s.files.set file) (conflicts : t.conflicts = s.conflicts) :
      Change P s (.process now uuid op userId) t
  /-- A conflict is opened on a row without one. -/
  | opened {now : Time} {uuid : Uuid} {op : FileOp} {userId : Option String} {t : Store}
      {row : StoredFile} (opRow : opRow op s = some row) (thawed : truthy row.conflictId = false)
      (files : t.files = s.files.set { row with
        conflictId := some (conflictOf uuid op row s).1.conflictId, updatedAt := now })
      (conflicts : t.conflicts = (conflictOf uuid op row s).2.conflicts) :
      Change P s (.process now uuid op userId) t
  /-- A claim is taken or given back. -/
  | claimed {e : ServerEvent} {t : Store} {current written : ConflictRecord}
      {status : ConflictStatus} {claimedBy : Option String}
      (mem : current ∈ s.conflicts.rows) (pending : current.status ≠ .resolved)
      (written_eq : written = { current with status, claimedBy })
      (status_ne : status ≠ .resolved) (unclaimed : status = .opened → claimedBy = none)
      (files : t.files = s.files) (conflicts : t.conflicts = s.conflicts.set written) :
      Change P s e t
  /-- A conflict is resolved. -/
  | resolved {now : Time} {input : ResolveInput} {t : Store} {r : Resolution}
      (resolution : resolution P input s = some r)
      (files : t.files = s.files.set (resolvedFile now input r.conflict r.content r.file))
      (conflicts : t.conflicts = s.conflicts.set (resolvedConflict input r.conflict r.content)) :
      Change P s (.resolve now input) t

/-- An accepted op makes one of the first four changes. -/
theorem change_of_accepted {P : Platform} {now : Time} {uuid : Uuid} {op : FileOp}
    {userId : Option String} {s : Store} {applied : Applied}
    (ha : accepted P now uuid op userId s = some applied) :
    Change P s (.process now uuid op userId)
      (serverStep P s (.process now uuid op userId)) := by
  have hspec := accepted_spec ha
  have hthawed := hspec.unguarded.notFrozen
  have hfiles : (serverStep P s (.process now uuid op userId)).files
      = s.files.set applied.file := by
    rw [files_serverStep, writtenFile, ha]
    rfl
  have hconflicts : (serverStep P s (.process now uuid op userId)).conflicts
      = applied.tx.conflicts := by
    rw [serverStep, process_of_accepted ha, commit_conflicts]
  have hmem : ∀ {row}, opRow op s = some row → row ∈ s.files.rows := Table.mem_of_get?
  have hkey := key_of_effect hspec.effect
  cases hspec.effect with
  | created kind dead canonical unique conflicts =>
    exact .wrote hkey (hthawed (by rw [kind]; rfl)) rfl hfiles (hconflicts.trans conflicts)
  | updated row kind dominates conflicts =>
    have hcontent : op.kind.isContent = true := by
      rcases kind with ⟨kind, -⟩ | kind <;> rw [kind] <;> rfl
    exact .wrote hkey (hthawed hcontent) rfl hfiles (hconflicts.trans conflicts)
  | conflicted row kind concurrent conflicts =>
    have hcontent : op.kind.isContent = true := by
      rcases kind with ⟨kind, -⟩ | kind <;> rw [kind] <;> rfl
    exact .opened row (hthawed hcontent _ row) hfiles (hconflicts.trans conflicts)
  | lostRename row kind clock_eq loses conflicts =>
    exact .moved (hmem row) (hkey.trans (key_of_opRow row).symm) rfl rfl rfl hfiles
      (hconflicts.trans conflicts)
  | renamed row kind clock_eq wins canonical unique conflicts =>
    exact .moved (hmem row) (hkey.trans (key_of_opRow row).symm) rfl rfl rfl hfiles
      (hconflicts.trans conflicts)
  | deleted row kind conflicts =>
    exact .moved (hmem row) (hkey.trans (key_of_opRow row).symm) rfl rfl rfl hfiles
      (hconflicts.trans conflicts)
  | restored row kind canonical unique conflicts =>
    exact .wrote hkey (hthawed (by rw [kind]; rfl)) rfl hfiles (hconflicts.trans conflicts)

/-- **Every event makes one of the changes.** -/
theorem change_serverStep (P : Platform) (s : Store) (e : ServerEvent) :
    Change P s e (serverStep P s e) := by
  cases e with
  | process now uuid op userId =>
    cases ha : accepted P now uuid op userId s with
    | none =>
      obtain ⟨hframe, hconflicts⟩ := frame_of_not_accepted ha
      exact .idle hframe.files hconflicts
    | some applied => exact change_of_accepted ha
  | claim vaultId userId deviceId conflictId =>
    rcases claim_cases vaultId userId deviceId conflictId s with
      h | ⟨current, written, hget, hpending, heq, h⟩
    · exact .idle (by rw [serverStep, h]) (by rw [serverStep, h])
    · exact .claimed (Table.mem_of_get? hget) hpending heq (by decide) (by simp)
        (by rw [serverStep, h]) (by rw [serverStep, h])
  | release vaultId userId deviceId conflictId =>
    rcases release_cases vaultId userId deviceId conflictId s with
      h | ⟨current, written, hget, hpending, heq, h⟩
    · exact .idle (by rw [serverStep, h]) (by rw [serverStep, h])
    · exact .claimed (Table.mem_of_get? hget) hpending heq (by decide) (fun _ => rfl)
        (by rw [serverStep, h]) (by rw [serverStep, h])
  | resolve now input =>
    cases hr : resolution P input s with
    | none =>
      have h : (resolve P now input s).2 = s := resolve_of_no_resolution hr
      exact .idle (by rw [serverStep, h]) (by rw [serverStep, h])
    | some r =>
      obtain ⟨-, -, -, h⟩ := resolve_of_resolution now hr
      exact .resolved hr (by rw [serverStep, h]) (by rw [serverStep, h])
  | saveDevice device => exact .idle rfl rfl
  | setRole vaultId userId role => exact .idle rfl rfl
  | saveBlob blob => exact .idle rfl rfl
  | putContent hash bytes => exact .idle rfl rfl

/-! ### The invariant -/

/-- The row and the unresolved records belong to each other. -/
structure RowNamed (s : Store) (file : StoredFile) : Prop where
  named : ∀ c ∈ s.conflicts.rows, file.conflictId = some c.conflictId ↔ Pending c file
  exists_of_named : ∀ id, file.conflictId = some id → ∃ c ∈ s.conflicts.rows, c.conflictId = id
  ours : ∀ c ∈ s.conflicts.rows, Pending c file →
    c.oursVV = some file.contentVV ∧ c.oursHash = file.contentHash

/-- What the events of a vault keep. -/
structure ConflictInvariant (vaultId : String) (s : Store) : Prop where
  vaultId : ∀ c ∈ s.conflicts.rows, c.vaultId = vaultId
  ids : ∀ c ∈ s.conflicts.rows, c.conflictId ≠ ""
  opened : ∀ c ∈ s.conflicts.rows, c.status = .opened → c.claimedBy = none
  row : ∀ c ∈ s.conflicts.rows, ∃ file ∈ s.files.rows, file.key = (c.vaultId, c.fileId)
  rows : ∀ file ∈ s.files.rows, RowNamed s file

theorem ConflictInvariant.conflictsNamed {vaultId : String} {s : Store}
    (h : ConflictInvariant vaultId s) : ConflictsNamed s where
  atMostOne := by
    intro file hfile c hc d hd hpc hpd
    have hnc := ((h.rows file hfile).named c hc).mpr hpc
    have hnd := ((h.rows file hfile).named d hd).mpr hpd
    exact Table.eq_of_key_eq hc hd (Option.some.inj (hnc.symm.trans hnd))
  named file hfile := (h.rows file hfile).named
  exists_of_named file hfile := (h.rows file hfile).exists_of_named
  ours file hfile := (h.rows file hfile).ours

/-- A conflict is pending for a row by the key of the row. -/
theorem pending_iff {c : ConflictRecord} {file : StoredFile} :
    Pending c file ↔ (c.vaultId, c.fileId) = file.key ∧ c.status ≠ .resolved := by
  simp [Pending, StoredFile.key, and_assoc]

theorem pending_congr {c : ConflictRecord} {row file : StoredFile} (h : file.key = row.key) :
    Pending c file ↔ Pending c row := by
  rw [pending_iff, pending_iff, h]

/-- A row whose content is not frozen has no unresolved conflict. -/
theorem ConflictInvariant.not_pending {vaultId : String} {s : Store}
    (h : ConflictInvariant vaultId s) {file : StoredFile} (hfile : file ∈ s.files.rows)
    (hthawed : truthy file.conflictId = false) {c : ConflictRecord} (hc : c ∈ s.conflicts.rows) :
    ¬ Pending c file := by
  intro hpending
  rw [((h.rows file hfile).named c hc).mpr hpending, truthy_some, decide_eq_false_iff_not,
    not_not] at hthawed
  exact h.ids c hc hthawed

/-- The row and the records after the content of the row moved. -/
theorem RowNamed.congr {s t : Store} {row file : StoredFile} (h : RowNamed s row)
    (hconflicts : t.conflicts = s.conflicts) (hkey : file.key = row.key)
    (hvv : file.contentVV = row.contentVV) (hhash : file.contentHash = row.contentHash)
    (hid : file.conflictId = row.conflictId) : RowNamed t file := by
  constructor
  · intro c hc
    rw [hconflicts] at hc
    rw [hid, pending_congr hkey]
    exact h.named c hc
  · rw [hid, hconflicts]
    exact h.exists_of_named
  · intro c hc hpending
    rw [hconflicts] at hc
    rw [hvv, hhash]
    exact h.ours c hc ((pending_congr hkey).mp hpending)

/-- A row after a record was written that belongs to it as it should. -/
theorem RowNamed.set {s t : Store} {file : StoredFile} (h : RowNamed s file) (d : ConflictRecord)
    (hconflicts : t.conflicts = s.conflicts.set d)
    (hnamed : file.conflictId = some d.conflictId ↔ Pending d file)
    (hours : Pending d file → d.oursVV = some file.contentVV ∧ d.oursHash = file.contentHash) :
    RowNamed t file := by
  have hmem : ∀ {c}, c ∈ t.conflicts.rows →
      c = d ∨ c ∈ s.conflicts.rows ∧ c.conflictId ≠ d.conflictId := by
    intro c hc
    rw [hconflicts] at hc
    exact Table.mem_set_iff.mp hc
  constructor
  · intro c hc
    rcases hmem hc with rfl | ⟨hc, -⟩
    · exact hnamed
    · exact h.named c hc
  · intro id hid
    obtain ⟨c, hc, rfl⟩ := h.exists_of_named id hid
    rw [hconflicts]
    by_cases hcd : c.conflictId = d.conflictId
    · exact ⟨d, Table.mem_set_iff.mpr (Or.inl rfl), hcd.symm⟩
    · exact ⟨c, Table.mem_set_iff.mpr (Or.inr ⟨hc, hcd⟩), rfl⟩
  · intro c hc hpending
    rcases hmem hc with rfl | ⟨hc, -⟩
    · exact hours hpending
    · exact h.ours c hc hpending

/-- A row without a conflict and without a record. -/
theorem RowNamed.of_none {t : Store} {file : StoredFile} (hid : file.conflictId = none)
    (hnone : ∀ c ∈ t.conflicts.rows, ¬ Pending c file) : RowNamed t file := by
  refine ⟨?_, ?_, fun c hc hpending => absurd hpending (hnone c hc)⟩
  · intro c hc
    rw [hid]
    exact ⟨nofun, fun hpending => absurd hpending (hnone c hc)⟩
  · intro id h
    rw [hid] at h
    exact nomatch h

/-- Every key that has a row keeps one when a row is written. -/
theorem exists_key_set {files : Table StoredFile.key} {file : StoredFile}
    {key : String × String} (h : ∃ row ∈ files.rows, row.key = key) :
    ∃ row ∈ (files.set file).rows, row.key = key := by
  obtain ⟨row, hrow, rfl⟩ := h
  by_cases hkey : row.key = file.key
  · exact ⟨file, Table.mem_set_iff.mpr (Or.inl rfl), hkey.symm⟩
  · exact ⟨row, Table.mem_set_iff.mpr (Or.inr ⟨hrow, hkey⟩), rfl⟩

/-! ### One event -/

/-- The events of a vault: its ops, where `randomUUID()` gives an id that no
conflict has. -/
def WithinVault (vaultId : String) (s : Store) : ServerEvent → Prop
  | .process _ uuid op _ => op.vaultId = vaultId ∧ s.getConflict uuid.1 = none
  | _ => True

instance (vaultId : String) (s : Store) :
    (e : ServerEvent) → Decidable (WithinVault vaultId s e)
  | .process _ uuid op _ =>
    inferInstanceAs (Decidable (op.vaultId = vaultId ∧ s.getConflict uuid.1 = none))
  | .claim .. | .release .. | .resolve .. | .saveDevice .. | .setRole .. | .saveBlob .. |
    .putContent .. => isTrue trivial

/-- The record a concurrent content op opens. -/
def openedConflict (uuid : Uuid) (op : FileOp) (row : StoredFile) : ConflictRecord :=
  { conflictId := uuid.1, vaultId := op.vaultId, fileId := op.fileId
    kind := if op.type = .attachment then .attachment else .content
    baseHash := op.contentHash, oursHash := row.contentHash
    theirsHash := op.contentHash.or op.blobRef
    oursVV := some row.contentVV, theirsVV := some (declaredVV op), status := .opened }

/-- Where no unresolved conflict has the file, a new one is opened. -/
theorem conflictOf_of_resolved {uuid : Uuid} {op : FileOp} {row : StoredFile} {s : Store}
    (h : ∀ c ∈ s.conflicts.rows, c.fileId = op.fileId → c.status = .resolved) :
    conflictOf uuid op row s = (openedConflict uuid op row,
      { s with conflicts := s.conflicts.set (openedConflict uuid op row) }) := by
  unfold conflictOf openedConflict
  -- the kind of the record does not matter
  generalize (if op.type = .attachment then ConflictKind.attachment else .content) = kind
  unfold Store.createConflict
  dsimp only
  have hnone : s.conflicts.rows.find? (fun existing => decide (existing.fileId = op.fileId ∧
      existing.kind = kind ∧ existing.oursHash = row.contentHash ∧
      existing.theirsHash = op.contentHash.or op.blobRef ∧ existing.status ≠ .resolved))
      = none := by
    rw [List.find?_eq_none]
    intro c hc hsame
    rw [decide_eq_true_eq] at hsame
    exact hsame.2.2.2.2 (h c hc hsame.1)
  rw [hnone]

section Steps

variable {P : Platform} {vaultId : String} {s t : Store}

/-- A row was written that belongs to the records as it should. -/
theorem ConflictInvariant.write (h : ConflictInvariant vaultId s) {file : StoredFile}
    (hfile : RowNamed t file) (hfiles : t.files = s.files.set file)
    (hconflicts : t.conflicts = s.conflicts) : ConflictInvariant vaultId t := by
  refine ⟨?_, ?_, ?_, ?_, ?_⟩
  · rw [hconflicts]
    exact h.vaultId
  · rw [hconflicts]
    exact h.ids
  · rw [hconflicts]
    exact h.opened
  · rw [hconflicts, hfiles]
    intro c hc
    exact exists_key_set (h.row c hc)
  · rw [hfiles]
    intro other hother
    rcases Table.mem_set_iff.mp hother with rfl | ⟨hother, -⟩
    · exact hfile
    · exact (h.rows other hother).congr hconflicts rfl rfl rfl rfl

/-- A record was written, and every row belongs to it as it should. -/
theorem ConflictInvariant.record (h : ConflictInvariant vaultId s) {d : ConflictRecord}
    (hvault : d.vaultId = vaultId) (hid : d.conflictId ≠ "")
    (hopened : d.status = .opened → d.claimedBy = none)
    (hkeys : ∀ key, (∃ row ∈ s.files.rows, row.key = key) → ∃ row ∈ t.files.rows, row.key = key)
    (hrow : ∃ row ∈ s.files.rows, row.key = (d.vaultId, d.fileId))
    (hconflicts : t.conflicts = s.conflicts.set d)
    (hrows : ∀ file ∈ t.files.rows, RowNamed t file) : ConflictInvariant vaultId t := by
  have hmem : ∀ {c}, c ∈ t.conflicts.rows → c = d ∨ c ∈ s.conflicts.rows := by
    intro c hc
    rw [hconflicts] at hc
    exact (Table.mem_set_iff.mp hc).imp_right And.left
  refine ⟨?_, ?_, ?_, ?_, hrows⟩
  · intro c hc
    rcases hmem hc with rfl | hc
    · exact hvault
    · exact h.vaultId c hc
  · intro c hc
    rcases hmem hc with rfl | hc
    · exact hid
    · exact h.ids c hc
  · intro c hc
    rcases hmem hc with rfl | hc
    · exact hopened
    · exact h.opened c hc
  · intro c hc
    rcases hmem hc with rfl | hc
    · exact hkeys _ hrow
    · exact hkeys _ (h.row c hc)

/-- A conflict on a row without one is a new record. -/
theorem ConflictInvariant.conflictOf_eq (h : ConflictInvariant vaultId s) (uuid : Uuid)
    {op : FileOp} {row : StoredFile} (hvault : op.vaultId = vaultId)
    (hrow : opRow op s = some row) (hthawed : truthy row.conflictId = false) :
    conflictOf uuid op row s = (openedConflict uuid op row,
      { s with conflicts := s.conflicts.set (openedConflict uuid op row) }) := by
  apply conflictOf_of_resolved
  intro c hc hfile
  by_contra hpending
  apply h.not_pending (Table.mem_of_get? hrow) hthawed hc
  rw [pending_iff, key_of_opRow hrow, h.vaultId c hc, hvault, hfile]
  exact ⟨rfl, hpending⟩

/-- Opening a conflict on a row without one. -/
theorem ConflictInvariant.open (h : ConflictInvariant vaultId s) {now : Time} {uuid : Uuid}
    {op : FileOp} {row : StoredFile} (hvault : op.vaultId = vaultId)
    (hfresh : s.getConflict uuid.1 = none) (hrow : opRow op s = some row)
    (hthawed : truthy row.conflictId = false)
    (hfiles : t.files = s.files.set { row with
      conflictId := some (conflictOf uuid op row s).1.conflictId, updatedAt := now })
    (hconflicts : t.conflicts = (conflictOf uuid op row s).2.conflicts) :
    ConflictInvariant vaultId t := by
  have hmem : row ∈ s.files.rows := Table.mem_of_get? hrow
  have hkey : row.key = (op.vaultId, op.fileId) := key_of_opRow hrow
  rw [h.conflictOf_eq uuid hvault hrow hthawed] at hfiles hconflicts
  have hunused : ∀ file ∈ s.files.rows, file.conflictId ≠ some uuid.1 := by
    intro file hfile hid
    obtain ⟨c, hc, hcid⟩ := (h.rows file hfile).exists_of_named _ hid
    exact Table.get?_eq_none_iff.mp hfresh c hc hcid
  refine h.record (d := openedConflict uuid op row) hvault uuid.2 (fun _ => rfl) ?_
    ⟨row, hmem, hkey⟩ hconflicts ?_
  · intro key hexists
    rw [hfiles]
    exact exists_key_set hexists
  intro file hfile
  rw [hfiles] at hfile
  rcases Table.mem_set_iff.mp hfile with rfl | ⟨hfile, hne⟩
  · -- the row itself: the new record is its only unresolved one
    constructor
    · intro c hc
      rw [hconflicts] at hc
      rcases Table.mem_set_iff.mp hc with rfl | ⟨hc, hcid⟩
      · exact ⟨fun _ => ⟨congrArg Prod.fst hkey.symm, congrArg Prod.snd hkey.symm, nofun⟩,
          fun _ => rfl⟩
      · refine ⟨fun hid => absurd (Option.some.inj hid).symm hcid, fun hpending => ?_⟩
        exact absurd hpending (h.not_pending hmem hthawed hc)
    · intro id hid
      rw [hconflicts]
      exact ⟨_, Table.mem_set_iff.mpr (Or.inl rfl), Option.some.inj hid⟩
    · intro c hc hpending
      rw [hconflicts] at hc
      rcases Table.mem_set_iff.mp hc with rfl | ⟨hc, -⟩
      · exact ⟨rfl, rfl⟩
      · exact absurd hpending (h.not_pending hmem hthawed hc)
  · have hother : ¬ Pending (openedConflict uuid op row) file := by
      rw [pending_iff]
      exact fun hpending => hne (hpending.1.symm.trans hkey.symm)
    exact (h.rows file hfile).set (openedConflict uuid op row) hconflicts
      ⟨fun hid => absurd hid (hunused file hfile), fun hpending => absurd hpending hother⟩
      fun hpending => absurd hpending hother

/-- Taking or giving back a claim. -/
theorem ConflictInvariant.claim (h : ConflictInvariant vaultId s) {current : ConflictRecord}
    {status : ConflictStatus} {claimedBy : Option String} (hmem : current ∈ s.conflicts.rows)
    (hcurrent : current.status ≠ .resolved) (hstatus : status ≠ .resolved)
    (hopened : status = .opened → claimedBy = none) (hfiles : t.files = s.files)
    (hconflicts : t.conflicts = s.conflicts.set { current with status, claimedBy }) :
    ConflictInvariant vaultId t := by
  have hpending : ∀ file, Pending { current with status, claimedBy } file ↔
      Pending current file := by
    intro file
    simp [Pending, hstatus, hcurrent]
  refine h.record (d := { current with status, claimedBy }) (h.vaultId current hmem)
    (h.ids current hmem) hopened ?_ (by simpa [eq_comm] using h.row current hmem) hconflicts ?_
  · rw [hfiles]
    exact fun _ hexists => hexists
  · rw [hfiles]
    intro file hfile
    apply (h.rows file hfile).set _ hconflicts
    · rw [hpending]
      exact (h.rows file hfile).named current hmem
    · rw [hpending]
      exact (h.rows file hfile).ours current hmem

/-- The conflict of a resolution that goes through is an unresolved one of its row,
and claimed by the device. -/
structure Resolves (input : ResolveInput) (s : Store) (r : Resolution) : Prop where
  get : s.getConflict input.conflictId = some r.conflict
  conflict : r.conflict ∈ s.conflicts.rows
  file : r.file ∈ s.files.rows
  pending : Pending r.conflict r.file
  claimedBy : r.conflict.claimedBy = some input.deviceId

theorem resolves_of_resolution {input : ResolveInput} {r : Resolution}
    (hr : resolution P input s = some r) : Resolves input s r := by
  obtain ⟨hget, hstatus, hfile, -⟩ := resolve_of_resolution 0 hr
  have hkey : r.file.key = (r.conflict.vaultId, r.conflict.fileId) := Table.key_of_get? hfile
  refine ⟨hget, Table.mem_of_get? hget, Table.mem_of_get? hfile,
    pending_iff.mpr ⟨hkey.symm, hstatus⟩, ?_⟩
  unfold resolution at hr
  simp only [hget] at hr
  split at hr
  · exact nomatch hr
  · next hopen =>
    rw [not_or, not_not] at hopen
    exact hopen.2

/-- Resolving a conflict. -/
theorem ConflictInvariant.resolve (h : ConflictInvariant vaultId s) {now : Time}
    {input : ResolveInput} {r : Resolution} (hr : Resolves input s r)
    (hfiles : t.files = s.files.set (resolvedFile now input r.conflict r.content r.file))
    (hconflicts : t.conflicts = s.conflicts.set (resolvedConflict input r.conflict r.content)) :
    ConflictInvariant vaultId t := by
  have hresolved : ∀ file, ¬ Pending (resolvedConflict input r.conflict r.content) file :=
    fun file hpending => hpending.2.2 rfl
  refine h.record (d := resolvedConflict input r.conflict r.content)
    (h.vaultId r.conflict hr.conflict) (h.ids r.conflict hr.conflict) nofun ?_ ?_ hconflicts ?_
  · intro key hexists
    rw [hfiles]
    exact exists_key_set hexists
  · exact h.row r.conflict hr.conflict
  intro file hfile
  rw [hfiles] at hfile
  rcases Table.mem_set_iff.mp hfile with rfl | ⟨hfile, hne⟩
  · -- the row of the conflict: no other conflict of it is unresolved
    apply RowNamed.of_none rfl
    intro c hc hpending
    rw [hconflicts] at hc
    rcases Table.mem_set_iff.mp hc with rfl | ⟨hc, hcid⟩
    · exact hresolved _ hpending
    · have hsame : c = r.conflict :=
        h.conflictsNamed.atMostOne r.file hr.file c hc r.conflict hr.conflict hpending hr.pending
      apply hcid
      rw [hsame]
      rfl
  · apply (h.rows file hfile).set _ hconflicts
    · constructor
      · intro hid
        have hpending := ((h.rows file hfile).named r.conflict hr.conflict).mp hid
        rw [pending_iff] at hpending
        exact absurd (hpending.1.symm.trans (pending_iff.mp hr.pending).1) hne
      · exact fun hpending => absurd hpending (hresolved file)
    · exact fun hpending => absurd hpending (hresolved file)

/-- **Every event of the vault keeps the invariant.** -/
theorem conflictInvariant_serverStep (h : ConflictInvariant vaultId s) (e : ServerEvent)
    (hwithin : WithinVault vaultId s e) : ConflictInvariant vaultId (serverStep P s e) := by
  cases change_serverStep P s e with
  | idle files conflicts =>
    refine ⟨?_, ?_, ?_, ?_, ?_⟩
    · rw [conflicts]
      exact h.vaultId
    · rw [conflicts]
      exact h.ids
    · rw [conflicts]
      exact h.opened
    · rw [conflicts, files]
      exact h.row
    · rw [files]
      exact fun file hfile => (h.rows file hfile).congr conflicts rfl rfl rfl rfl
  | moved mem key contentVV contentHash conflictId files conflicts =>
    exact h.write ((h.rows _ mem).congr conflicts key contentVV contentHash conflictId) files
      conflicts
  | @wrote now uuid op userId _ file key thawed conflictId files conflicts =>
    apply h.write _ files conflicts
    apply RowNamed.of_none conflictId
    intro c hc hpending
    rw [conflicts] at hc
    -- the conflict has a row, which is the one that was written
    obtain ⟨row, hrow, hkey⟩ := h.row c hc
    rw [pending_iff, ← hkey] at hpending
    have hget : opRow op s = some row :=
      Table.get?_eq_some_iff.mpr ⟨hrow, hpending.1.trans key⟩
    apply h.not_pending hrow (thawed row hget) hc
    rw [pending_iff, hkey]
    exact ⟨rfl, hpending.2⟩
  | opened opRow thawed files conflicts =>
    exact h.open hwithin.1 hwithin.2 opRow thawed files conflicts
  | claimed mem pending written_eq status_ne unclaimed files conflicts =>
    rw [written_eq] at conflicts
    exact h.claim mem pending status_ne unclaimed files conflicts
  | resolved resolution files conflicts =>
    exact h.resolve (resolves_of_resolution resolution) files conflicts

/-- The vector of a resolution is above both sides and above the vector of the row. -/
theorem aboveBothSides_resolved (h : ConflictInvariant vaultId s) {input : ResolveInput}
    {r : Resolution} (hr : Resolves input s r) :
    AboveBothSides (joinedVV input r.conflict) r.conflict r.file := by
  have hours := ((h.rows r.file hr.file).ours r.conflict hr.conflict hr.pending).1
  have hsides := VersionVector.dominates_join_left
    (VersionVector.join (r.conflict.oursVV.getD VersionVector.emptyVV)
      (r.conflict.theirsVV.getD VersionVector.emptyVV)) input.resolvedVV
  have hleft := VersionVector.dominates_trans hsides (VersionVector.dominates_join_left _ _)
  have hright := VersionVector.dominates_trans hsides (VersionVector.dominates_join_right _ _)
  refine ⟨VersionVector.strictlyDominates_bump hleft _,
    VersionVector.strictlyDominates_bump hright _, VersionVector.strictlyDominates_bump ?_ _⟩
  rw [hours] at hleft
  rw [hours]
  exact hleft

/-- **Every event of the vault follows the rules of resolution.** -/
theorem resolutionRules_serverStep (h : ConflictInvariant vaultId s) (e : ServerEvent)
    (hwithin : WithinVault vaultId s e) : ResolutionRules s e (serverStep P s e) := by
  have hsame : ∀ {key : StoredFile → String × String} {rows : Table key} {file written},
      file ∈ rows.rows → written ∈ rows.rows → key written = key file → written = file :=
    fun hfile hwritten hkey => Table.eq_of_key_eq hwritten hfile hkey
  cases change_serverStep P s e with
  | idle files conflicts =>
    refine ⟨?_, ?_, ?_⟩
    · rw [conflicts]
      exact fun c hc _ => hc
    · rw [conflicts]
      exact fun d hd _ hnew => absurd hd hnew
    · rw [files]
      intro now input _ file hfile written hwritten hkey hne
      exact absurd (hsame hfile hwritten hkey) hne
  | moved mem key contentVV contentHash conflictId files conflicts =>
    refine ⟨?_, ?_, nofun⟩
    · rw [conflicts]
      exact fun c hc _ => hc
    · rw [conflicts]
      exact fun d hd _ hnew => absurd hd hnew
  | wrote key thawed conflictId files conflicts =>
    refine ⟨?_, ?_, nofun⟩
    · rw [conflicts]
      exact fun c hc _ => hc
    · rw [conflicts]
      exact fun d hd _ hnew => absurd hd hnew
  | @opened now uuid op userId _ row opRow thawed files conflicts =>
    rw [h.conflictOf_eq uuid hwithin.1 opRow thawed] at conflicts
    refine ⟨?_, ?_, nofun⟩
    · rw [conflicts]
      intro c hc _
      have hne : c.conflictId ≠ uuid.1 := Table.get?_eq_none_iff.mp hwithin.2 c hc
      exact Table.mem_set_iff.mpr (Or.inr ⟨hc, hne⟩)
    · rw [conflicts]
      intro d hd hresolved hnew
      rcases Table.mem_set_iff.mp hd with rfl | ⟨hd, -⟩
      · exact nomatch hresolved
      · exact absurd hd hnew
  | claimed mem pending written_eq status_ne unclaimed files conflicts =>
    rw [written_eq] at conflicts
    refine ⟨?_, ?_, ?_⟩
    · rw [conflicts]
      intro c hc hresolved
      refine Table.mem_set_iff.mpr (Or.inr ⟨hc, fun hid => pending ?_⟩)
      rw [← Table.eq_of_key_eq hc mem hid]
      exact hresolved
    · rw [conflicts]
      intro d hd hresolved hnew
      rcases Table.mem_set_iff.mp hd with rfl | ⟨hd, -⟩
      · exact absurd hresolved status_ne
      · exact absurd hd hnew
    · rw [files]
      intro now input _ file hfile written hwritten hkey hne
      exact absurd (hsame hfile hwritten hkey) hne
  | @resolved now input _ r resolution files conflicts =>
    have hr := resolves_of_resolution resolution
    refine ⟨?_, ?_, ?_⟩
    · rw [conflicts]
      intro c hc hresolved
      refine Table.mem_set_iff.mpr (Or.inr ⟨hc, fun hid => hr.pending.2.2 ?_⟩)
      rw [← Table.eq_of_key_eq hc hr.conflict hid]
      exact hresolved
    · rw [conflicts]
      intro d hd hresolved hnew
      rcases Table.mem_set_iff.mp hd with rfl | ⟨hd, -⟩
      · refine ⟨now, input, rfl, rfl, r.conflict, hr.conflict, rfl, ?_, hr.claimedBy⟩
        -- neither open nor resolved
        cases hstatus : r.conflict.status with
        | opened =>
          have hnone := h.opened r.conflict hr.conflict hstatus
          rw [hr.claimedBy] at hnone
          exact nomatch hnone
        | claimed => rfl
        | resolved => exact absurd hstatus hr.pending.2.2
      · exact absurd hd hnew
    · rintro _ _ ⟨⟩ file hfile written hwritten hkey hne
      rw [files] at hwritten
      rcases Table.mem_set_iff.mp hwritten with rfl | ⟨hwritten, -⟩
      · obtain rfl : r.file = file := hsame hfile hr.file hkey
        exact ⟨r.conflict, hr.get, hr.pending, aboveBothSides_resolved h hr⟩
      · exact absurd (hsame hfile hwritten hkey) hne

end Steps

/-! ### Runs -/

/-- A store without conflicts. -/
structure WithoutConflicts (s : Store) : Prop where
  conflicts : s.conflicts.rows = []
  files : ∀ file ∈ s.files.rows, file.conflictId = none

theorem WithoutConflicts.conflictInvariant {s : Store} (h : WithoutConflicts s)
    (vaultId : String) : ConflictInvariant vaultId s := by
  have hnone : ∀ c, c ∉ s.conflicts.rows := by
    rw [h.conflicts]
    exact fun c => List.not_mem_nil
  refine ⟨?_, ?_, ?_, ?_, ?_⟩
  · exact fun c hc => absurd hc (hnone c)
  · exact fun c hc => absurd hc (hnone c)
  · exact fun c hc => absurd hc (hnone c)
  · exact fun c hc => absurd hc (hnone c)
  · exact fun file hfile => .of_none (h.files file hfile) fun c hc => absurd hc (hnone c)

/-- **The lifecycle of conflicts.**  In every state of a run of the events of one vault,
rows and unresolved conflicts belong to each other, and every step of it follows
the rules of resolution. -/
theorem conflictLifecycle_run {P : Platform} {vaultId : String} {s : Store}
    (hs : WithoutConflicts s) {es : List ServerEvent}
    (hes : Run.EachStep (serverStep P) (WithinVault vaultId) s es) :
    Run.Throughout (serverStep P) ConflictsNamed s es ∧
    Run.EachStep (serverStep P) (fun s e => ResolutionRules s e (serverStep P s e)) s es := by
  have hstep : ∀ s e, ConflictInvariant vaultId s → WithinVault vaultId s e →
      ConflictInvariant vaultId (serverStep P s e) :=
    fun s e h hwithin => conflictInvariant_serverStep h e hwithin
  have hinv := hs.conflictInvariant vaultId
  constructor
  · exact (Run.throughout_of_invariant hstep hinv hes).mono fun s h => h.conflictsNamed
  · exact Run.eachStep_of_invariant hstep
      (fun s e h hwithin => resolutionRules_serverStep h e hwithin) hinv hes

/-- A create, a concurrent create of the same file by the other device, a delete, and
the resolution of the conflict by the device that claimed it after the other gave
its claim back. -/
def sampleConflictRun : List ServerEvent :=
  [.process 0 (sampleId 0)
      (sampleContentOp .create "o1" "d1" "f" 1 (some "a.md") (sampleVV "d1" 1) "one") (some "u"),
   .process 1 (sampleId 1)
      (sampleContentOp .create "o2" "d2" "f" 1 (some "a.md") (sampleVV "d2" 1) "two") (some "u"),
   .claim "v" "u" "d1" (sampleId 1).1,
   .release "v" "u" "d1" (sampleId 1).1,
   .process 2 (sampleId 2) (sampleDelete "o3" "d1" "f" 2) (some "u"),
   .claim "v" "u" "d2" (sampleId 1).1,
   .resolve 3
      { vaultId := "v", userId := "u", conflictId := (sampleId 1).1, deviceId := "d2"
        inlineText := some "three", resolvedVV := sampleVV "d2" 2 }]

theorem conflictLifecycle_sampleConflictRun :
    Run.Throughout (serverStep samplePlatform) ConflictsNamed sampleStore sampleConflictRun ∧
    Run.EachStep (serverStep samplePlatform)
      (fun s e => ResolutionRules s e (serverStep samplePlatform s e)) sampleStore
      sampleConflictRun :=
  conflictLifecycle_run ⟨rfl, fun _ h => absurd h List.not_mem_nil⟩
    (show Run.EachStep (serverStep samplePlatform) (WithinVault "v") sampleStore sampleConflictRun
      by decide +kernel)

end ObsidianSync
