import ObsidianSync.Room.Bookkeeping
import ObsidianSync.Server.Clocks

/-!
# Tombstones

The row of a deleted file stays as its tombstone: the flag, the time and the vector of
the delete.  A delete writes all three and a create or a restore clears all three.  An
update ahead of the row and the resolution of a conflict make a deleted file live again as
well, and leave the vector; so does the bookkeeping of a room that writes a row back as it
was before the delete, with all three.

## Main definitions

* `TombstonesExact` — the three fields of every row agree.
* `Revived` — a file deleted before a step and live after it.
* `BroughtBack`, `EditedBack` — the calls that make a deleted file live.
* `LeavesBuried` — a call that edits no deleted file back.

## Main results

* `tombstonesExact_serverStep`, `revived_serverStep` — what one call does to the tombstones.
* `tombstonesKept_of_leavesBuried` — **throughout a run that edits no deleted file back and
  disturbs no tombstone that a room has read, the fields agree, and files come back by creates
  and restores only.**
* `not_tombstonesKept_editedBack` — an update brings a deleted note back.
* `not_tombstonesKept_writtenBack` — and so does a heartbeat around its delete.
-/

namespace ObsidianSync

/-! ### Rows -/

/-- The tombstone of a row: the flag, the time and the vector of its delete. -/
def StoredFile.tombstone (row : StoredFile) : Bool × Option Time × Option VersionVector :=
  (row.deleted, row.deletedAt, row.deleteVV)

/-- A row is deleted exactly when it has a time of its delete, and exactly when it has the
vector. -/
structure RowBuried (row : StoredFile) : Prop where
  deletedAt : row.deleted = true ↔ row.deletedAt.isSome = true
  deleteVV : row.deleted = true ↔ row.deleteVV.isSome = true

/-- The three fields of every row agree. -/
def TombstonesExact (data : Store) : Prop :=
  ∀ vaultId fileId, ∀ row ∈ data.getFile vaultId fileId, RowBuried row

/-- A file that is deleted in the first store and live in the second. -/
def Revived (s t : Store) (vaultId fileId : String) : Prop :=
  ∃ row ∈ s.getFile vaultId fileId, row.deleted = true ∧
    ∃ file ∈ t.getFile vaultId fileId, file.deleted = false

/-! ### Calls -/

/-- The call is an op on the file that is accepted. -/
def AcceptedOn (P : Platform) (s : Store) (vaultId fileId : String) (kinds : OpKind → Prop) :
    ServerEvent → Prop
  | .process now uuid op userId =>
    (accepted P now uuid op userId s).isSome = true ∧ kinds op.kind ∧
      op.vaultId = vaultId ∧ op.fileId = fileId
  | _ => False

/-- An accepted create or restore of the file. -/
def BroughtBack (P : Platform) (s : Store) (vaultId fileId : String) (e : ServerEvent) : Prop :=
  AcceptedOn P s vaultId fileId (fun kind => kind = .create ∨ kind = .restore) e

/-- An accepted update of the file ahead of its row, or the resolution of a conflict of the
file. -/
def EditedBack (P : Platform) (s : Store) (vaultId fileId : String) : ServerEvent → Prop
  | .process now uuid op userId =>
    AcceptedOn P s vaultId fileId (fun kind => kind = .update) (.process now uuid op userId) ∧
      ∀ row ∈ opRow op s, VersionVector.dominates (declaredVV op) row.contentVV = true
  | .resolve _ input => ∃ r ∈ resolution P input s, r.file.key = (vaultId, fileId)
  | _ => False

/-- A call that edits no deleted file back: an update that is accepted ahead of its row, and a
resolution that goes through, find the file live. -/
def LeavesBuried (P : Platform) (s : Store) : ServerEvent → Prop
  | .process now uuid op userId => op.kind = .update →
    (accepted P now uuid op userId s).isSome = true → ∀ row ∈ opRow op s,
      VersionVector.dominates (declaredVV op) row.contentVV = true → row.deleted = false
  | .resolve _ input => ∀ r ∈ resolution P input s, r.file.deleted = false
  | _ => True

instance (P : Platform) (s : Store) : (e : ServerEvent) → Decidable (LeavesBuried P s e)
  | .process now uuid op userId => inferInstanceAs (Decidable (op.kind = .update →
      (accepted P now uuid op userId s).isSome = true → ∀ row ∈ opRow op s,
        VersionVector.dominates (declaredVV op) row.contentVV = true → row.deleted = false))
  | .resolve _ input =>
    inferInstanceAs (Decidable (∀ r ∈ resolution P input s, r.file.deleted = false))
  | .claim .. | .release .. | .saveDevice _ | .setRole .. | .saveBlob _ | .putContent .. =>
    isTrue trivial

section

variable {P : Platform} {s : Store}

theorem TombstonesExact.row (h : TombstonesExact s) {op : FileOp} {row : StoredFile}
    (hrow : opRow op s = some row) : RowBuried row :=
  h op.vaultId op.fileId row hrow

/-- A live row has nothing of a tombstone. -/
theorem RowBuried.of_live {row : StoredFile} (hlive : row.deleted = false)
    (hdeletedAt : row.deletedAt = none) (hdeleteVV : row.deleteVV = none) : RowBuried row := by
  constructor <;> simp [hlive, hdeletedAt, hdeleteVV]

/-- The vector of a live row. -/
theorem RowBuried.deleteVV_of_live {row : StoredFile} (h : RowBuried row)
    (hlive : row.deleted = false) : row.deleteVV = none := by
  have hnot : ¬ row.deleteVV.isSome = true := by
    rw [← h.deleteVV, hlive]
    exact Bool.false_ne_true
  simpa using hnot

/-- What an accepted op writes is buried as a whole or not at all, unless it edits a deleted
file back. -/
theorem rowBuried_effect {now : Time} {uuid : Uuid} {op : FileOp} {applied : Applied}
    (hs : TombstonesExact s) (h : Effect P now uuid op s applied)
    (hleaves : op.kind = .update → ∀ row ∈ opRow op s,
      VersionVector.dominates (declaredVV op) row.contentVV = true → row.deleted = false) :
    RowBuried applied.file := by
  cases h with
  | created | restored => exact .of_live rfl rfl rfl
  | @updated row _ hrow kind dominates =>
    have hlive : row.deleted = false := by
      rcases kind with ⟨-, hlive⟩ | kind
      · exact hlive
      · exact hleaves kind row hrow dominates
    exact .of_live rfl rfl ((hs.row hrow).deleteVV_of_live hlive)
  | deleted => exact ⟨iff_of_true rfl rfl, iff_of_true rfl rfl⟩
  | conflicted row | lostRename row | renamed row =>
    have hrow := hs.row row
    exact ⟨hrow.deletedAt, hrow.deleteVV⟩

theorem rowBuried_of_written (hs : TombstonesExact s) {e : ServerEvent} {file : StoredFile}
    (he : LeavesBuried P s e) (h : writtenFile P s e = some file) : RowBuried file := by
  cases e with
  | process now uuid op userId =>
    obtain ⟨applied, happlied, rfl⟩ := Option.map_eq_some_iff.mp h
    exact rowBuried_effect hs (accepted_spec happlied).effect fun hkind =>
      he hkind (by rw [happlied]; rfl)
  | resolve now input =>
    obtain ⟨r, hr, rfl⟩ := Option.map_eq_some_iff.mp h
    have hmem : r.file ∈ s.files.rows := (resolves_of_resolution hr).file
    have hburied : RowBuried r.file := hs r.file.vaultId r.file.fileId r.file
      (getFile_of_key hmem rfl)
    exact .of_live rfl rfl (hburied.deleteVV_of_live (he r hr))
  | claim | release | saveDevice | setRole | saveBlob | putContent => simp [writtenFile] at h

/-- **A call that edits no deleted file back** keeps the tombstones. -/
theorem tombstonesExact_serverStep (hs : TombstonesExact s) {e : ServerEvent}
    (he : LeavesBuried P s e) : TombstonesExact (serverStep P s e) := by
  intro vaultId fileId row hrow
  rw [getFile_serverStep] at hrow
  split at hrow
  · exact hs vaultId fileId row hrow
  next file hfile =>
  split at hrow
  · obtain rfl := Option.mem_some_iff.mp hrow
    exact rowBuried_of_written hs he hfile
  · exact hs vaultId fileId row hrow

/-- The op that makes a deleted file live. -/
theorem revived_effect {now : Time} {uuid : Uuid} {op : FileOp} {applied : Applied}
    (h : Effect P now uuid op s applied) {row : StoredFile} (hrow : opRow op s = some row)
    (hdead : row.deleted = true) (hlive : applied.file.deleted = false) :
    (op.kind = .create ∨ op.kind = .restore) ∨ op.kind = .update ∧
      VersionVector.dominates (declaredVV op) row.contentVV = true := by
  have hsame : ∀ {file : StoredFile}, opRow op s = some file → file = row :=
    fun hfile => Option.some.inj (hfile.symm.trans hrow)
  cases h with
  | created kind => exact Or.inl (Or.inl kind)
  | restored _ kind => exact Or.inl (Or.inr kind)
  | updated hfile kind dominates =>
    obtain rfl := hsame hfile
    rcases kind with ⟨-, hnot⟩ | kind
    · simp [hdead] at hnot
    · exact Or.inr ⟨kind, dominates⟩
  | conflicted hfile | lostRename hfile | renamed hfile =>
    obtain rfl := hsame hfile
    exact absurd (hdead.symm.trans hlive) Bool.noConfusion
  | deleted => exact absurd hlive Bool.noConfusion

/-- **What one call revives** it creates, restores, updates or resolves. -/
theorem revived_serverStep {e : ServerEvent} {vaultId fileId : String}
    (h : Revived s (serverStep P s e) vaultId fileId) :
    BroughtBack P s vaultId fileId e ∨ EditedBack P s vaultId fileId e := by
  obtain ⟨row, hrow, hdead, file, hfile, hlive⟩ := h
  rw [getFile_serverStep] at hfile
  -- a row that was not written is still deleted
  have hstays : s.getFile vaultId fileId ≠ some file := by
    intro hsame
    obtain rfl := Option.some.inj (hsame.symm.trans hrow)
    simp [hdead] at hlive
  split at hfile
  · exact absurd hfile hstays
  next written hwritten =>
  split at hfile
  case isFalse => exact absurd hfile hstays
  next hkey =>
  obtain rfl := Option.mem_some_iff.mp hfile
  cases e with
  | process now uuid op userId =>
    obtain ⟨applied, happlied, rfl⟩ := Option.map_eq_some_iff.mp hwritten
    have heffect := (accepted_spec happlied).effect
    have hop : op.vaultId = vaultId ∧ op.fileId = fileId := by
      rw [key_of_effect heffect, Prod.mk.injEq] at hkey
      exact hkey
    have hopRow : opRow op s = some row := by
      rw [opRow, hop.1, hop.2]
      exact hrow
    have hsome : (accepted P now uuid op userId s).isSome = true := by simp [happlied]
    rcases revived_effect heffect hopRow hdead hlive with hkind | ⟨hkind, hdom⟩
    · exact Or.inl ⟨hsome, hkind, hop⟩
    · refine Or.inr ⟨⟨hsome, hkind, hop⟩, ?_⟩
      intro row' hrow'
      obtain rfl := Option.some.inj (hrow'.symm.trans hopRow)
      exact hdom
  | resolve now input =>
    obtain ⟨r, hr, rfl⟩ := Option.map_eq_some_iff.mp hwritten
    exact Or.inr ⟨r, hr, hkey⟩
  | claim | release | saveDevice | setRole | saveBlob | putContent =>
    simp [writtenFile] at hwritten

/-- Such a call revives only what it creates or restores. -/
theorem broughtBack_of_revived {e : ServerEvent} (he : LeavesBuried P s e)
    {vaultId fileId : String} (h : Revived s (serverStep P s e) vaultId fileId) :
    BroughtBack P s vaultId fileId e := by
  rcases revived_serverStep h with hback | hedited
  · exact hback
  obtain ⟨row, hrow, hdead, -⟩ := h
  cases e with
  | process now uuid op userId =>
    obtain ⟨⟨haccepted, hkind, rfl, rfl⟩, hdominates⟩ := hedited
    have hlive := he hkind haccepted row hrow (hdominates row hrow)
    simp [hdead] at hlive
  | resolve now input =>
    obtain ⟨r, hr, hkey⟩ := hedited
    have hmem : r.file ∈ s.files.rows := (resolves_of_resolution hr).file
    obtain rfl : r.file = row := Option.some.inj ((getFile_of_key hmem hkey).symm.trans hrow)
    have hlive := he r hr
    simp [hdead] at hlive
  | claim | release | saveDevice | setRole | saveBlob | putContent => exact absurd hedited id

end

/-! ### Steps -/

/-- A file that a step revives is created or restored by an op that is accepted. -/
def RevivedExplicitly (P : Platform) (s : RowStore) (e : RowEvent) : Prop :=
  ∀ vaultId fileId, Revived s.data (rowStep P s e).data vaultId fileId →
    ∃ event, e = .commit event ∧ BroughtBack P s.data vaultId fileId event

/-- No deleted file is edited back, and no tombstone is changed in a row that a call of a room
has read and not written yet. -/
def KeepsTombstones (P : Platform) (s : RowStore) : RowEvent → Prop
  | .commit event => Undisturbed StoredFile.tombstone P s (.commit event) ∧
      LeavesBuried P s.data event
  | _ => True

instance (P : Platform) (s : RowStore) : (e : RowEvent) → Decidable (KeepsTombstones P s e)
  | .commit event => inferInstanceAs (Decidable (Undisturbed StoredFile.tombstone P s
      (.commit event) ∧ LeavesBuried P s.data event))
  | .start .. | .next .. | .fails .. | .restart => isTrue trivial

section

variable {P : Platform} {s : RowStore}

theorem leaseless_tombstone : Leaseless StoredFile.tombstone := fun _ => rfl

theorem KeepsTombstones.undisturbed {e : RowEvent} (h : KeepsTombstones P s e) :
    Undisturbed StoredFile.tombstone P s e := by
  cases e with
  | commit event => exact h.1
  | start | next | fails | restart => exact h

/-- Bookkeeping that writes current rows back changes no tombstone. -/
theorem tombstone_next (hread : RowsRead StoredFile.tombstone s) {nextVault nextFile : String}
    {stamp : Option Time} {vaultId fileId : String} {row : StoredFile}
    (hrow : row ∈ (s.next nextVault nextFile stamp).data.getFile vaultId fileId) :
    ∃ file ∈ s.data.getFile vaultId fileId, file.tombstone = row.tombstone := by
  have hsame := view_next leaseless_tombstone hread nextVault nextFile stamp vaultId fileId
  rw [Option.mem_def.mp hrow, Option.map_some] at hsame
  exact Option.map_eq_some_iff.mp hsame.symm

theorem RowBuried.of_same {file row : StoredFile} (h : RowBuried file)
    (hsame : file.tombstone = row.tombstone) : RowBuried row := by
  simp only [StoredFile.tombstone, Prod.mk.injEq] at hsame
  obtain ⟨hdeleted, hdeletedAt, hdeleteVV⟩ := hsame
  constructor
  · rw [← hdeleted, ← hdeletedAt]
    exact h.deletedAt
  · rw [← hdeleted, ← hdeleteVV]
    exact h.deleteVV

theorem tombstonesExact_rowStep {e : RowEvent} (hread : RowsRead StoredFile.tombstone s)
    (he : KeepsTombstones P s e) (h : TombstonesExact s.data) :
    TombstonesExact (rowStep P s e).data := by
  cases e with
  | start vaultId fileId call =>
    simp only [rowStep, (start_frame vaultId fileId call).1]
    exact h
  | next nextVault nextFile stamp =>
    intro vaultId fileId row hrow
    obtain ⟨file, hfile, hsame⟩ := tombstone_next hread hrow
    exact (h vaultId fileId file hfile).of_same hsame
  | fails | restart => exact h
  | commit event => exact tombstonesExact_serverStep h he.2

/-- What is deleted and live at once is no file. -/
theorem not_revived_self {data : Store} {vaultId fileId : String} :
    ¬ Revived data data vaultId fileId := by
  rintro ⟨row, hrow, hdead, file, hfile, hlive⟩
  obtain rfl := Option.some.inj ((Option.mem_def.mp hrow).symm.trans hfile)
  simp [hdead] at hlive

theorem revivedExplicitly_rowStep {e : RowEvent} (hread : RowsRead StoredFile.tombstone s)
    (he : KeepsTombstones P s e) : RevivedExplicitly P s e := by
  intro vaultId fileId hrevived
  cases e with
  | start startVault startFile call =>
    simp only [rowStep, (start_frame (s := s) startVault startFile call).1] at hrevived
    exact absurd hrevived not_revived_self
  | next nextVault nextFile stamp =>
    obtain ⟨row, hrow, hdead, file, hfile, hlive⟩ := hrevived
    obtain ⟨old, hold, hsame⟩ := tombstone_next hread hfile
    -- the row has the tombstone that it had before
    obtain rfl := Option.some.inj ((Option.mem_def.mp hrow).symm.trans hold)
    have hdeleted : row.deleted = file.deleted := congrArg Prod.fst hsame
    simp [hdeleted, hlive] at hdead
  | fails | restart => exact absurd hrevived not_revived_self
  | commit event => exact ⟨event, rfl, broughtBack_of_revived he.2 hrevived⟩

end

/-! ### Runs -/

/-- **The tombstones agree throughout every run** in which no deleted file is edited back and no
tombstone changes under a call of a room, and a deleted file comes back by an accepted create or
restore only. -/
theorem tombstonesKept_of_leavesBuried (P : Platform) {data : Store}
    (hdata : TombstonesExact data) {es : List RowEvent}
    (hes : Run.EachStep (rowStep P) (KeepsTombstones P) (RowStore.initial data) es) :
    Run.Throughout (rowStep P) (fun s => TombstonesExact s.data) (RowStore.initial data) es ∧
      Run.EachStep (rowStep P) (RevivedExplicitly P) (RowStore.initial data) es := by
  have hstep : ∀ s e, RowsRead StoredFile.tombstone s ∧ TombstonesExact s.data →
      KeepsTombstones P s e → RowsRead StoredFile.tombstone (rowStep P s e) ∧
        TombstonesExact (rowStep P s e).data :=
    fun s e h he => ⟨rowsRead_rowStep leaseless_tombstone h.1 he.undisturbed,
      tombstonesExact_rowStep h.1 he h.2⟩
  constructor
  · exact (Run.throughout_of_invariant hstep ⟨rowsRead_initial data, hdata⟩ hes).mono
      fun _ h => h.2
  · exact Run.eachStep_of_invariant hstep (fun s e h he => revivedExplicitly_rowStep h.1 he)
      ⟨rowsRead_initial data, hdata⟩ hes

/-! ### Notes that come back -/

theorem tombstonesExact_sampleStore : TombstonesExact sampleStore :=
  fun _ _ _ hrow => absurd (Table.mem_of_get? hrow) List.not_mem_nil

/-- A note is created and opened, a heartbeat is over before its delete, and it is restored. -/
theorem tombstonesKept_restored :
    Run.Throughout (rowStep samplePlatform) (fun s => TombstonesExact s.data)
        (RowStore.initial sampleStore)
        (sampleNote ++ [.start "v" "f1" (.heartbeat 60003), .next "v" "f1" none,
          .next "v" "f1" none, .next "v" "f1" (some 3), sampleNoteDeleted,
          .start "v" "f1" .closeWithoutFlush, .restart,
          .commit (.process 60003 sampleUuid
            (sampleContentOp .restore "o3" "d1" "f1" 2 none (sampleVV "d1" 2) "two")
            (some "u"))]) ∧
      Run.EachStep (rowStep samplePlatform) (RevivedExplicitly samplePlatform)
        (RowStore.initial sampleStore)
        (sampleNote ++ [.start "v" "f1" (.heartbeat 60003), .next "v" "f1" none,
          .next "v" "f1" none, .next "v" "f1" (some 3), sampleNoteDeleted,
          .start "v" "f1" .closeWithoutFlush, .restart,
          .commit (.process 60003 sampleUuid
            (sampleContentOp .restore "o3" "d1" "f1" 2 none (sampleVV "d1" 2) "two")
            (some "u"))]) :=
  tombstonesKept_of_leavesBuried samplePlatform tombstonesExact_sampleStore (by decide +kernel)

theorem revived_of_flags {s t : Store} {vaultId fileId : String}
    (hdead : (s.getFile vaultId fileId).map StoredFile.deleted = some true)
    (hlive : (t.getFile vaultId fileId).map StoredFile.deleted = some false) :
    Revived s t vaultId fileId := by
  obtain ⟨row, hrow, hdead⟩ := Option.map_eq_some_iff.mp hdead
  obtain ⟨file, hfile, hlive⟩ := Option.map_eq_some_iff.mp hlive
  exact ⟨row, hrow, hdead, file, hfile, hlive⟩

/-- A note that is created, deleted and updated by the device that has seen the delete. -/
def sampleEditedBack : List RowEvent :=
  [.commit (.process 1 sampleUuid (sampleContentOp .create "o1" "d1" "f1" 1 (some "a.md")
      (sampleVV "d1" 1) "one") (some "u")),
   .commit (.process 2 sampleUuid (sampleDelete "o2" "d1" "f1" 2) (some "u")),
   .commit (.process 3 sampleUuid
      (sampleContentOp .update "o3" "d1" "f1" 3 none (sampleVV "d1" 2) "two") (some "u"))]

/-- **The update revives the note**, and its row is live with the vector of the delete. -/
theorem not_tombstonesKept_editedBack :
    ¬ Run.Throughout (rowStep samplePlatform) (fun s => TombstonesExact s.data)
        (RowStore.initial sampleStore) sampleEditedBack ∧
      ¬ Run.EachStep (rowStep samplePlatform) (RevivedExplicitly samplePlatform)
        (RowStore.initial sampleStore) sampleEditedBack := by
  constructor
  · intro h
    have hrow : ((Run.final (rowStep samplePlatform) (RowStore.initial sampleStore)
        sampleEditedBack).data.getFile "v" "f1").isSome = true := by decide +kernel
    have hvector := (h.final "v" "f1" _ (Option.get_mem hrow)).deleteVV
    exact absurd hvector (by decide +kernel +revert)
  · rintro ⟨-, -, h, -⟩
    obtain ⟨event, hevent, hback⟩ := h "v" "f1"
      (revived_of_flags (by decide +kernel) (by decide +kernel))
    -- the call is an update
    obtain rfl := RowEvent.commit.inj hevent
    exact absurd hback.2.1 (by decide)

/-- **A heartbeat around its delete revives a note** without any op. -/
theorem not_tombstonesKept_writtenBack :
    ¬ Run.EachStep (rowStep samplePlatform) (RevivedExplicitly samplePlatform)
      (RowStore.initial sampleStore) sampleHeartbeatAroundDelete := by
  rw [sampleHeartbeatAroundDelete, Run.eachStep_append]
  rintro ⟨-, -, -, -, -, h, -⟩
  obtain ⟨event, hevent, -⟩ := h "v" "f1"
    (revived_of_flags (by decide +kernel) (by decide +kernel))
  exact nomatch hevent

end ObsidianSync
