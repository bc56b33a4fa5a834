import ObsidianSync.Room.Bookkeeping
import ObsidianSync.Server.Clocks

/-!
# One authority for the content

While a room is active its document is the content of the note, and ops of devices on the
content are refused.  What refuses them is a lease: the room is stored with it, and only then
it is copied into the row, where the op processor finds it.  Promotions, updates and heartbeats
renew it, time runs it down, and only a room with nobody in it is closed when it has run out.
The conflict service does not look at it.

## Main definitions

* `Exclusive` — what may happen while a room is stored as active.
* `LeaseRuns` — content ops come before the end of the lease, no conflict of the note is
  resolved, and no call ends between the room and its row.
* `Leased` — the row of an active room has the lease of the room, but between the two writes.

## Main results

* `fileActive_iff` — an op that gets there is refused exactly while the lease of the row runs.
* `leased_rowStep` — every call on a store keeps the lease of the room that of the row.
* `exclusive_of_leaseRuns` — **the room is the only authority in the runs in which its lease
  always runs.**
* `not_exclusive_idle`, `not_exclusive_betweenWrites` — content ops after the lease, and before
  it is in the row, are taken.
-/

namespace ObsidianSync

/-! ### Refusals of the op processor -/

/-- The answer to a content op on a file with an active room. -/
def fileActive (op : FileOp) : OpApplyResult :=
  reject op.opId .FILE_ACTIVE "File is active in Layer 2" (some (.hint "promote"))

/-- Whether an op gets to its row: it is new, its device may write, and its payload is
valid. -/
def reaches (P : Platform) (op : FileOp) (userId : Option String) (s : Store) : Bool :=
  (s.getOpById op.opId).isNone && (checkDevice op userId s).isNone &&
    (validatePayload P op s).1.isOk

/-- The failure is not that of a file with an active room. -/
def Failure.Other (e : Failure) : Prop := ∀ error, e = .sync error → error.code ≠ .FILE_ACTIVE

theorem other_of_fail {α : Type} {code : ErrorCode} {message : String}
    {details : Option ErrorDetails} {e : Failure} (hcode : code ≠ .FILE_ACTIVE)
    (h : (fail code message details : Except Failure α) = .error e) : e.Other := by
  obtain rfl := Except.error.inj h
  rintro error ⟨⟩
  exact hcode

theorem other_of_normalized {P : Platform} {raw : String} {e : Failure}
    (h : normalized P raw = .error e) : e.Other := by
  unfold normalized at h
  cases hpath : normalizePath P raw with
  | ok path => simp [hpath, Except.mapError] at h
  | error error =>
    obtain rfl : Failure.path error = e := by simpa [hpath, Except.mapError] using h
    exact fun _ h => nomatch h

theorem other_of_uniquePathFrom {P : Platform} {tx : Store} {vaultId desired fileId : String}
    {e : Failure} {fuel n : ℕ} {candidate : String}
    (h : uniquePathFrom P tx vaultId desired fileId fuel n candidate = .error e) : e.Other := by
  induction fuel generalizing n candidate with
  | zero => exact other_of_fail (by decide) h
  | succ fuel ih =>
    unfold uniquePathFrom at h
    split at h
    · simp at h
    split at h
    · simp at h
    · exact ih h

section

variable {P : Platform} {now : Time} {uuid : Uuid} {op : FileOp} {userId : Option String}
  {s tx : Store}

theorem other_of_applyUpdate {file : StoredFile} {e : Failure}
    (h : applyUpdate now uuid op file tx = .error e) : e.Other := by
  unfold applyUpdate at h
  dsimp only at h
  split at h
  · split at h
    · simp at h
    · exact other_of_fail (by decide) h
  · simp at h

theorem other_of_applyCreate {file : Option StoredFile} {e : Failure}
    (h : applyCreate P now uuid op file tx = .error e) : e.Other := by
  unfold applyCreate at h
  dsimp only at h
  split at h
  on_goal 2 =>
    split at h
    · exact other_of_applyUpdate h
  -- a row is made: there was none, or it was deleted
  all_goals
    split at h
    · next hpath =>
      obtain rfl := Except.error.inj h
      exact other_of_normalized hpath
    split at h
    · next hpath =>
      obtain rfl := Except.error.inj h
      exact other_of_uniquePathFrom hpath
    · simp at h

theorem other_of_applyRestore {file : StoredFile} {e : Failure}
    (h : applyRestore P now op file tx = .error e) : e.Other := by
  unfold applyRestore at h
  dsimp only at h
  split at h
  · next hpath =>
    obtain rfl := Except.error.inj h
    exact other_of_normalized hpath
  split at h
  · next hpath =>
    obtain rfl := Except.error.inj h
    exact other_of_uniquePathFrom hpath
  · simp at h

/-- Where no lease runs, no content op fails for one. -/
theorem other_of_applyOp {file : Option StoredFile} {e : Failure}
    (hkind : op.kind.isContent = true) (hactive : file.any (isActive now) = false)
    (h : applyOp P now uuid op file tx = .error e) : e.Other := by
  unfold applyOp at h
  rw [hactive, Bool.and_false, Bool.false_and, if_neg Bool.false_ne_true] at h
  split at h
  · exact other_of_fail (by decide) h
  have hrequired : ∀ {e}, requiredFile file = .error e → e.Other := by
    intro e hfile
    cases file with
    | none => exact other_of_fail (by decide) hfile
    | some file => simp [requiredFile] at hfile
  split at h
  · exact other_of_applyCreate h
  · split at h
    · next hfile =>
      obtain rfl := Except.error.inj h
      exact hrequired hfile
    · exact other_of_applyUpdate h
  · next hrename => simp [hrename, OpKind.isContent] at hkind
  · next hdelete => simp [hdelete, OpKind.isContent] at hkind
  · split at h
    · next hfile =>
      obtain rfl := Except.error.inj h
      exact hrequired hfile
    · exact other_of_applyRestore h

/-- **A content op of a device that gets to its row is refused exactly while the lease of the
row runs.** -/
theorem fileActive_iff (hreaches : reaches P op userId s = true)
    (hkind : op.kind.isContent = true) (hdevice : syntheticCollab op = false) :
    (process P now uuid op userId s).1 = .ok (fileActive op) ↔
      (opRow op s).any (isActive now) = true := by
  unfold reaches at hreaches
  simp only [Bool.and_eq_true, Option.isNone_iff_eq_none] at hreaches
  obtain ⟨⟨hfresh, hcheck⟩, hvalid⟩ := hreaches
  rcases hpayload : validatePayload P op s with ⟨e | u, tx⟩
  · simp [hpayload, Except.isOk, Except.toBool] at hvalid
  obtain ⟨-, rfl⟩ := validatePayload_ok hpayload
  have hrow : (checkedContent op s).getFile op.vaultId op.fileId = opRow op s :=
    (frame_checkedContent op s).1.getFile op.vaultId op.fileId
  unfold process
  simp only [hfresh, hcheck, hpayload, hrow]
  cases hactive : (opRow op s).any (isActive now) with
  | true =>
    have happly : applyOp P now uuid op (opRow op s) (checkedContent op s)
        = fail .FILE_ACTIVE "File is active in Layer 2" (some (.hint "promote")) := by
      unfold applyOp
      rw [hdevice, hactive, hkind]
      rfl
    rw [happly]
    exact iff_of_true rfl rfl
  | false =>
    refine iff_of_false ?_ Bool.false_ne_true
    cases happly : applyOp P now uuid op (opRow op s) (checkedContent op s) with
    | ok applied => simp [fileActive, reject]
    | error e =>
      have hother := other_of_applyOp hkind hactive happly
      cases e with
      | path error => simp [answerFailure]
      | sync error =>
        have hcode := hother error rfl
        simp [answerFailure, fileActive, reject, hcode]

/-- An accepted op got to its row. -/
theorem reaches_of_accepted {applied : Applied}
    (ha : accepted P now uuid op userId s = some applied) : reaches P op userId s = true := by
  have hspec := accepted_spec ha
  unfold accepted at ha
  split at ha
  · simp at ha
  split at ha
  · simp at ha
  next hvalid =>
  unfold reaches
  rw [hspec.fresh, hspec.device, hvalid]
  rfl

end

/-! ### The property and the condition -/

/-- The Layer 1 content of a row. -/
structure NoteContent where
  contentVV : VersionVector
  contentHash : Option String
  blobRef : Option String
  size : Option ℕ
  contentEncoding : Option ContentEncryptionEncoding
  deriving DecidableEq

/-- The content of a row. -/
def StoredFile.content (file : StoredFile) : NoteContent :=
  { contentVV := file.contentVV, contentHash := file.contentHash, blobRef := file.blobRef,
    size := file.size, contentEncoding := file.contentEncoding }

/-- Whether an op is on the note. -/
def isOn (vaultId fileId : String) (op : FileOp) : Bool := op.vaultId = vaultId ∧ op.fileId = fileId

section

variable (P : Platform) (vaultId fileId : String)

/-- An op or a resolution leaves the content of the note, and a content op that gets to the row
is refused for the room. -/
def Excluded (data : Store) (event : ServerEvent) : Prop :=
  ((serverStep P data event).getFile vaultId fileId).map StoredFile.content
      = (data.getFile vaultId fileId).map StoredFile.content ∧
    ∀ now uuid op userId, event = .process now uuid op userId → isOn vaultId fileId op = true →
      op.kind.isContent = true → reaches P op userId data = true →
      (process P now uuid op userId data).1 = .ok (fileActive op)

/-- The event is an op of the room itself on its note. -/
def ofRoom : ServerEvent → Bool
  | .process _ _ op _ => isOn vaultId fileId op && syntheticCollab op
  | _ => false

/-- **One content authority at a time**: while the room is stored as active, nothing but its
own ops changes the content of the note, and the content ops of devices are refused. -/
def Exclusive (s : RowStore) : RowEvent → Prop
  | .commit event => (s.rooms (vaultId, fileId)).active = true →
      ofRoom vaultId fileId event = false → Excluded P vaultId fileId s.data event
  | .next nextVault nextFile stamp => (s.rooms (vaultId, fileId)).active = true →
      ((s.next nextVault nextFile stamp).data.getFile vaultId fileId).map StoredFile.content
        = (s.data.getFile vaultId fileId).map StoredFile.content
  | _ => True

/-- The ops in the name of the room are those of its flushes and of the restores of its versions. -/
def RoomUpdates (_ : RowStore) : RowEvent → Prop
  | .commit (.process _ _ op _) =>
    isOn vaultId fileId op = true → syntheticCollab op = true → op.kind = .update
  | _ => True

/-- The second write of `saveRuntime`. -/
def RoomWrite.isSaveRow : RoomWrite → Bool
  | saveRow _ => true
  | saveRoom _ | clearRow => false

/-- Whether a call has saved the room of the note and is about to write the row. -/
def RowStore.saving (s : RowStore) : Bool :=
  (s.tasks.get? (vaultId, fileId)).any fun task => task.writes.head?.any RoomWrite.isSaveRow

/-- The time is before the end of the lease: of the one that the room has, or, while a call has
saved the room and not written the row, of the one that the row still has. -/
def RowStore.LeaseLeft (s : RowStore) (now : Time) : Prop :=
  if s.saving vaultId fileId then
    ∃ row ∈ s.data.getFile vaultId fileId,
      (row.activeUntil.any fun leaseUntil => leaseUntil > now) = true
  else ((s.rooms (vaultId, fileId)).leaseUntil.any fun leaseUntil => leaseUntil > now) = true

instance (s : RowStore) (now : Time) : Decidable (s.LeaseLeft vaultId fileId now) := by
  unfold RowStore.LeaseLeft
  infer_instance

/-- A content op of a device that gets to the row comes before the end of the lease, and a
resolution that goes through is not one of the note's conflicts. -/
def InLease (s : RowStore) : ServerEvent → Prop
  | .process now _ op userId => isOn vaultId fileId op = true → syntheticCollab op = false →
      op.kind.isContent = true → reaches P op userId s.data = true → s.LeaseLeft vaultId fileId now
  | .resolve _ input => ∀ r ∈ resolution P input s.data,
      (r.conflict.vaultId, r.conflict.fileId) ≠ (vaultId, fileId)
  | _ => True

/-- While the room is stored as active, content ops come in its lease, none of its conflicts is
resolved, no transaction changes the content between the read of the row and its write, and no
call ends between the write of the room and that of the row. -/
def LeaseRuns (s : RowStore) : RowEvent → Prop
  | .commit event => (s.rooms (vaultId, fileId)).active = true →
      InLease P vaultId fileId s event ∧
        ∀ file ∈ writtenFile P s.data event, file.key = (vaultId, fileId) →
          ∀ task ∈ s.tasks.get? (vaultId, fileId), ∀ row ∈ task.row, file.content = row.content
  | .fails failVault failFile => (failVault, failFile) = (vaultId, fileId) →
      (s.rooms (vaultId, fileId)).active = true → s.saving vaultId fileId = false
  | .restart => (s.rooms (vaultId, fileId)).active = true → s.saving vaultId fileId = false
  | _ => True

instance (s : RowStore) : (e : ServerEvent) → Decidable (InLease P vaultId fileId s e)
  | .process now _ op userId => inferInstanceAs (Decidable (isOn vaultId fileId op = true →
      syntheticCollab op = false → op.kind.isContent = true → reaches P op userId s.data = true →
      s.LeaseLeft vaultId fileId now))
  | .resolve _ input => inferInstanceAs (Decidable (∀ r ∈ resolution P input s.data,
      (r.conflict.vaultId, r.conflict.fileId) ≠ (vaultId, fileId)))
  | .claim .. | .release .. | .saveDevice _ | .setRole .. | .saveBlob _ | .putContent .. =>
    isTrue trivial

instance (s : RowStore) : (e : RowEvent) → Decidable (LeaseRuns P vaultId fileId s e)
  | .commit event => inferInstanceAs (Decidable ((s.rooms (vaultId, fileId)).active = true →
      InLease P vaultId fileId s event ∧
        ∀ file ∈ writtenFile P s.data event, file.key = (vaultId, fileId) →
          ∀ task ∈ s.tasks.get? (vaultId, fileId), ∀ row ∈ task.row,
            file.content = row.content))
  | .fails failVault failFile => inferInstanceAs (Decidable
      ((failVault, failFile) = (vaultId, fileId) →
        (s.rooms (vaultId, fileId)).active = true → s.saving vaultId fileId = false))
  | .restart => inferInstanceAs (Decidable
      ((s.rooms (vaultId, fileId)).active = true → s.saving vaultId fileId = false))
  | .start .. | .next .. => isTrue trivial

instance (s : RowStore) : (e : RowEvent) → Decidable (RoomUpdates vaultId fileId s e)
  | .commit (.process _ _ op _) => inferInstanceAs (Decidable
      (isOn vaultId fileId op = true → syntheticCollab op = true → op.kind = .update))
  | .commit (.claim ..) | .commit (.release ..) | .commit (.resolve ..) | .commit (.saveDevice _)
  | .commit (.setRole ..) | .commit (.saveBlob _) | .commit (.putContent ..) | .start ..
  | .next .. | .fails .. | .restart => isTrue trivial

end

/-! ### The writes of a call -/

/-- The writes that are left fit the room as it is stored: a room that is saved is followed by
its row, which gets the lease of the room, and a lease is dropped for a dormant room only. -/
def WritesFit (room : StoredLease) : List RoomWrite → Prop
  | [] => True
  | .saveRoom saved :: rest =>
    rest.head? = some (.saveRow saved.activeUntil) ∧ WritesFit saved rest
  | .saveRow activeUntil :: rest => activeUntil = room.activeUntil ∧ WritesFit room rest
  | .clearRow :: rest => room.active = false ∧ WritesFit room rest

theorem writesFit_writes (room old : StoredLease) (call : RoomCall) :
    WritesFit room (call.writes old) := by
  cases call with
  | promote leaseUntil activates =>
    cases activates <;> simp [RoomCall.writes, RoomCall.saveRuntime, WritesFit]
  | handleUpdate | heartbeat | compact | restoreHistoryVersion =>
    simp [RoomCall.writes, RoomCall.saveRuntime, WritesFit]
  | demoteLocked | closeWithoutFlush =>
    simp [RoomCall.writes, RoomCall.saveRuntime, RoomCall.room, WritesFit]

/-- The rooms that a call saves are what it makes of the room. -/
theorem room_of_mem_writes {old room : StoredLease} {call : RoomCall}
    (h : .saveRoom room ∈ call.writes old) : room = call.room old := by
  cases call with
  | promote leaseUntil activates =>
    cases activates <;> simpa [RoomCall.writes, RoomCall.saveRuntime] using h
  | handleUpdate | heartbeat | compact | restoreHistoryVersion | demoteLocked
  | closeWithoutFlush => simpa [RoomCall.writes, RoomCall.saveRuntime] using h

/-- A call that leaves the room active found it active, or found the row. -/
theorem active_of_passes {old : StoredLease} {file : Option StoredFile} {call : RoomCall}
    (hpasses : call.passes old file = true) (hactive : (call.room old).active = true) :
    old.active = true ∨ file.isSome = true := by
  cases call with
  | promote leaseUntil activates =>
    simp only [RoomCall.passes, Bool.and_eq_true] at hpasses
    exact Or.inr (Option.isSome_of_any hpasses.1)
  | handleUpdate | heartbeat | compact | restoreHistoryVersion => exact Or.inl hactive
  | demoteLocked | closeWithoutFlush => simp [RoomCall.room] at hactive

/-! ### The rows that were read -/

/-- A row that a call has read is that of its file. -/
def RowsOwn (s : RowStore) : Prop := ∀ task ∈ s.tasks.rows, ∀ row ∈ task.row, row.key = task.key

section

variable {P : Platform} {s : RowStore}

theorem rowsOwn_rowStep (h : RowsOwn s) (e : RowEvent) : RowsOwn (rowStep P s e) := by
  cases e with
  | start vaultId fileId call =>
    intro task htask row hrow
    rcases mem_tasks_start htask with hmem | hnone
    · exact h task hmem row hrow
    · simp [hnone] at hrow
  | next vaultId fileId stamp =>
    intro task htask row hrow
    rcases mem_tasks_next htask with hmem | hnone | ⟨file, hfile, hsome, -⟩
    · exact h task hmem row hrow
    · simp [hnone] at hrow
    · obtain rfl : file = row := Option.some.inj (hsome.symm.trans hrow)
      exact Table.key_of_get? (t := s.data.files) hfile
  | fails => exact fun task htask => h task (Table.mem_erase_iff.mp htask).1
  | commit => exact h
  | restart => exact fun task htask => absurd htask List.not_mem_nil

end

/-! ### The lease in the row -/

section

variable (vaultId fileId : String)

/-- The row of a note whose room is active is there and has its lease, unless the room is just
being saved; the call in progress has writes that fit the room, and the row as it is. -/
structure Leased (s : RowStore) : Prop where
  own : RowsOwn s
  hasRow : ∀ room, room = s.rooms (vaultId, fileId) ∨ room ∈ s.memory (vaultId, fileId) ∨
    (∃ task ∈ s.tasks.get? (vaultId, fileId), .saveRoom room ∈ task.writes) →
    room.active = true → (s.data.getFile vaultId fileId).isSome = true
  fit : ∀ task ∈ s.tasks.get? (vaultId, fileId), WritesFit (s.rooms (vaultId, fileId)) task.writes
  lease : (s.rooms (vaultId, fileId)).active = true → s.saving vaultId fileId = false →
    ∀ row ∈ s.data.getFile vaultId fileId,
      row.activeUntil = (s.rooms (vaultId, fileId)).leaseUntil
  read : (s.rooms (vaultId, fileId)).active = true →
    ∀ task ∈ s.tasks.get? (vaultId, fileId), ∀ row ∈ task.row,
      (s.data.getFile vaultId fileId).map StoredFile.content = some row.content

theorem leased_initial (data : Store) : Leased vaultId fileId (RowStore.initial data) where
  own := fun task htask => absurd htask List.not_mem_nil
  hasRow := by
    rintro room (rfl | hroom | ⟨task, htask, -⟩) hactive
    · exact absurd hactive Bool.false_ne_true
    · simp [RowStore.initial] at hroom
    · simp [RowStore.initial] at htask
  fit := by simp [RowStore.initial]
  lease := fun hactive => absurd hactive Bool.false_ne_true
  read := fun hactive => absurd hactive Bool.false_ne_true

variable {vaultId fileId} {P : Platform} {s t : RowStore}

/-- The room of the note in memory, or in the store, has a row if it is active. -/
theorem Leased.persisted (h : Leased vaultId fileId s)
    (hactive : (s.persisted (vaultId, fileId)).active = true) :
    (s.data.getFile vaultId fileId).isSome = true := by
  unfold RowStore.persisted at hactive
  cases hmemory : s.memory (vaultId, fileId) with
  | none =>
    rw [hmemory] at hactive
    exact h.hasRow _ (Or.inl rfl) hactive
  | some room =>
    rw [hmemory] at hactive
    exact h.hasRow room (Or.inr (Or.inl hmemory)) hactive

/-- What is done to other notes changes nothing for this one. -/
theorem Leased.of_frame (h : Leased vaultId fileId s) (hown : RowsOwn t)
    (hdata : t.data.getFile vaultId fileId = s.data.getFile vaultId fileId)
    (hrooms : t.rooms (vaultId, fileId) = s.rooms (vaultId, fileId))
    (hmemory : t.memory (vaultId, fileId) = s.memory (vaultId, fileId))
    (htasks : t.tasks.get? (vaultId, fileId) = s.tasks.get? (vaultId, fileId)) :
    Leased vaultId fileId t := by
  have hsaving : t.saving vaultId fileId = s.saving vaultId fileId := by
    rw [RowStore.saving, htasks, RowStore.saving]
  refine ⟨hown, ?_, ?_, ?_, ?_⟩
  · rw [hrooms, hmemory, htasks, hdata]
    exact h.hasRow
  · rw [hrooms, htasks]
    exact h.fit
  · rw [hrooms, hsaving, hdata]
    exact h.lease
  · rw [hrooms, htasks, hdata]
    exact h.read

/-- The call in progress on the note ends, at a restart with the rooms in memory. -/
theorem Leased.of_ended (h : Leased vaultId fileId s) (hown : RowsOwn t)
    (hdata : t.data = s.data) (hrooms : t.rooms = s.rooms)
    (hmemory : ∀ room ∈ t.memory (vaultId, fileId), room ∈ s.memory (vaultId, fileId))
    (htasks : t.tasks.get? (vaultId, fileId) = none)
    (hended : (s.rooms (vaultId, fileId)).active = true → s.saving vaultId fileId = false) :
    Leased vaultId fileId t := by
  refine ⟨hown, ?_, ?_, ?_, ?_⟩
  · rintro room (rfl | hroom | ⟨task, htask, -⟩) hactive
    · rw [hrooms] at hactive
      rw [hdata]
      exact h.hasRow _ (Or.inl rfl) hactive
    · rw [hdata]
      exact h.hasRow room (Or.inr (Or.inl (hmemory room hroom))) hactive
    · simp [htasks] at htask
  · simp [htasks]
  · intro hactive _ row hrow
    rw [hrooms] at hactive ⊢
    rw [hdata] at hrow
    exact h.lease hactive (hended hactive) row hrow
  · simp [htasks]

/-! ### A call that starts -/

theorem leased_start (h : Leased vaultId fileId s) (startVault startFile : String)
    (call : RoomCall) : Leased vaultId fileId (s.start startVault startFile call) := by
  have hown : RowsOwn (s.start startVault startFile call) :=
    rowsOwn_rowStep (P := samplePlatform) h.own (.start startVault startFile call)
  revert hown
  unfold RowStore.start
  cases htask : s.tasks.get? (startVault, startFile) with
  | some task => exact fun _ => h
  | none =>
    dsimp only
    split
    case isFalse => exact fun _ => h
    next hpasses =>
    intro hown
    by_cases hkey : (startVault, startFile) = (vaultId, fileId)
    case neg =>
      refine h.of_frame hown rfl rfl (Function.update_of_ne (Ne.symm hkey) _ _) ?_
      exact (Table.get?_set _ _ _).trans (if_neg hkey)
    obtain ⟨rfl, rfl⟩ := Prod.mk.inj hkey
    let task : Bookkeeping :=
      { vaultId := startVault, fileId := startFile,
        writes := call.writes (s.persisted (startVault, startFile)) }
    have htask' : (s.tasks.set task).get? (startVault, startFile) = some task :=
      Table.get?_set_self s.tasks task
    have hsaves : ∀ room : StoredLease, room = call.room (s.persisted (startVault, startFile)) →
        room.active = true → (s.data.getFile startVault startFile).isSome = true := by
      rintro room rfl hactive
      rcases active_of_passes hpasses hactive with hold | hfile
      · exact h.persisted hold
      · exact hfile
    refine ⟨hown, ?_, ?_, ?_, ?_⟩
    · rintro room (hroom | hroom | ⟨other, hother, hmem⟩)
      · exact h.hasRow room (Or.inl hroom)
      · refine hsaves room ?_
        simpa using hroom.symm
      · obtain rfl := Option.some.inj (htask'.symm.trans hother)
        exact hsaves room (room_of_mem_writes hmem)
    · intro other hother
      obtain rfl := Option.some.inj (htask'.symm.trans hother)
      exact writesFit_writes _ _ call
    · intro hactive _ row hrow
      refine h.lease hactive ?_ row hrow
      rw [RowStore.saving, htask]
      rfl
    · intro _ other hother row hrow
      obtain rfl := Option.some.inj (htask'.symm.trans hother)
      simp at hrow

/-! ### The next call on a store -/

/-- The call in progress on another note leaves this one alone. -/
theorem frame_next (hown : RowsOwn s) {nextVault nextFile : String} (stamp : Option Time)
    (hkey : (nextVault, nextFile) ≠ (vaultId, fileId)) :
    (s.next nextVault nextFile stamp).data.getFile vaultId fileId
        = s.data.getFile vaultId fileId ∧
      (s.next nextVault nextFile stamp).rooms (vaultId, fileId) = s.rooms (vaultId, fileId) ∧
      (s.next nextVault nextFile stamp).memory (vaultId, fileId) = s.memory (vaultId, fileId) ∧
      (s.next nextVault nextFile stamp).tasks.get? (vaultId, fileId)
        = s.tasks.get? (vaultId, fileId) := by
  rcases s.next_cases nextVault nextFile stamp with hnext | ⟨task, htask, hcall⟩
  · rw [hnext]
    exact ⟨rfl, rfl, rfl, rfl⟩
  obtain ⟨hmem, htaskKey⟩ := Table.get?_eq_some_iff.mp htask
  have hother : task.key ≠ (vaultId, fileId) := fun h => hkey (htaskKey.symm.trans h)
  have hproceed : ∀ (u : RowStore) (rest : List RoomWrite),
      (u.proceed task rest).tasks.get? (vaultId, fileId) = u.tasks.get? (vaultId, fileId) := by
    intro u rest
    cases rest with
    | nil => exact (Table.get?_erase _ _ _).trans (if_neg (Ne.symm hother))
    | cons => exact (Table.get?_set _ _ _).trans (if_neg hother)
  generalize s.next nextVault nextFile stamp = t at hcall
  cases hcall with
  | @savesRoom room rest =>
    refine ⟨by simp [RowStore.saveRoom], ?_, by simp [RowStore.saveRoom], hproceed _ _⟩
    rw [RowStore.rooms_proceed]
    exact Function.update_of_ne (Ne.symm hother) _ _
  | @passes write rest => exact ⟨by simp, by simp, by simp, hproceed _ _⟩
  | reads => exact ⟨rfl, rfl, rfl, (Table.get?_set _ _ _).trans (if_neg hother)⟩
  | @saves write rest file written writes row isWritten =>
    refine ⟨?_, by simp, by simp, hproceed _ _⟩
    have hwritten : (written.stamped stamp).key ≠ (vaultId, fileId) := by
      have hsame : withoutLease (written.stamped stamp) = withoutLease file :=
        (withoutLease_stamped written stamp).trans (withoutLease_of_written isWritten)
      rw [key_of_withoutLease hsame, hown task hmem file row]
      exact hother
    rw [RowStore.data_proceed, Store.getFile_saveFile, if_neg hwritten]

theorem mem_remaining {rest : List RoomWrite} {task : Bookkeeping}
    (h : task ∈ remaining vaultId fileId rest) : task = { vaultId, fileId, writes := rest } := by
  cases rest with
  | nil => simp [remaining] at h
  | cons => exact (Option.some.inj h).symm

theorem saving_proceed (s : RowStore) (task : Bookkeeping) (rest : List RoomWrite) :
    (s.proceed task rest).saving task.vaultId task.fileId
      = rest.head?.any RoomWrite.isSaveRow := by
  unfold RowStore.saving
  rw [get?_tasks_proceed]
  cases rest <;> rfl

/-- The call goes on with writes that fit the room. -/
theorem leased_proceed {task : Bookkeeping} {rest : List RoomWrite}
    (hown : RowsOwn (s.proceed task rest))
    (hrow : ∀ room, room = s.rooms task.key ∨ room ∈ s.memory task.key ∨ .saveRoom room ∈ rest →
      room.active = true → (s.data.getFile task.vaultId task.fileId).isSome = true)
    (hfit : WritesFit (s.rooms task.key) rest)
    (hlease : (s.rooms task.key).active = true → rest.head?.any RoomWrite.isSaveRow = false →
      ∀ row ∈ s.data.getFile task.vaultId task.fileId,
        row.activeUntil = (s.rooms task.key).leaseUntil) :
    Leased task.vaultId task.fileId (s.proceed task rest) := by
  have htask : ∀ other ∈ (s.proceed task rest).tasks.get? (task.vaultId, task.fileId),
      other = { vaultId := task.vaultId, fileId := task.fileId, writes := rest } := by
    intro other hother
    rw [get?_tasks_proceed] at hother
    exact mem_remaining hother
  refine ⟨hown, ?_, ?_, ?_, ?_⟩
  · rw [RowStore.rooms_proceed, RowStore.memory_proceed, RowStore.data_proceed]
    rintro room (hroom | hroom | ⟨other, hother, hmem⟩)
    · exact hrow room (Or.inl hroom)
    · exact hrow room (Or.inr (Or.inl hroom))
    · obtain rfl := htask other hother
      exact hrow room (Or.inr (Or.inr hmem))
  · intro other hother
    obtain rfl := htask other hother
    rw [RowStore.rooms_proceed]
    exact hfit
  · rw [saving_proceed, RowStore.rooms_proceed, RowStore.data_proceed]
    exact hlease
  · intro _ other hother row hread
    obtain rfl := htask other hother
    simp at hread

/-- What is written back over a row has the lease of the room. -/
theorem activeUntil_of_written {write : RoomWrite} {rest : List RoomWrite} {room : StoredLease}
    {file written : StoredFile} (hfit : WritesFit room (write :: rest))
    (hwritten : write.written file = some written) (hactive : room.active = true) :
    written.activeUntil = room.leaseUntil := by
  cases write with
  | saveRoom => simp [RoomWrite.written] at hwritten
  | saveRow activeUntil =>
    obtain rfl : { file with activeUntil } = written := by
      simpa [RoomWrite.written] using hwritten
    rw [hfit.1, StoredLease.activeUntil, if_pos hactive]
  | clearRow => simp [hfit.1] at hactive

theorem writesFit_tail {write : RoomWrite} {rest : List RoomWrite} {room : StoredLease}
    (hwrite : ∀ saved, write ≠ .saveRoom saved) (hfit : WritesFit room (write :: rest)) :
    WritesFit room rest := by
  cases write with
  | saveRoom saved => exact absurd rfl (hwrite saved)
  | saveRow | clearRow => exact hfit.2

theorem leaseless_content : Leaseless StoredFile.content := fun _ => rfl

section Call

variable {task : Bookkeeping} {stamp : Option Time} {rest : List RoomWrite}

/-- What the call in progress may put into the room has a row. -/
theorem Leased.hasRow_task (h : Leased task.vaultId task.fileId s)
    (htask : s.tasks.get? task.key = some task) (room : StoredLease)
    (hroom : room = s.rooms task.key ∨ room ∈ s.memory task.key ∨ .saveRoom room ∈ task.writes)
    (hactive : room.active = true) :
    (s.data.getFile task.vaultId task.fileId).isSome = true := by
  rcases hroom with hroom | hroom | hmem
  · exact h.hasRow room (Or.inl hroom) hactive
  · exact h.hasRow room (Or.inr (Or.inl hroom)) hactive
  · exact h.hasRow room (Or.inr (Or.inr ⟨task, htask, hmem⟩)) hactive

/-- The room is saved, and the row is written next. -/
theorem leased_savesRoom {room : StoredLease} (h : Leased task.vaultId task.fileId s)
    (htask : s.tasks.get? task.key = some task) (hwrites : task.writes = .saveRoom room :: rest)
    (hown : RowsOwn ((s.saveRoom task.key room).proceed task rest)) :
    Leased task.vaultId task.fileId ((s.saveRoom task.key room).proceed task rest) := by
  have hfit : WritesFit (s.rooms task.key) (.saveRoom room :: rest) := hwrites ▸ h.fit task htask
  refine leased_proceed hown ?_ ?_ ?_
  · rintro other hother hactive
    refine h.hasRow_task htask other ?_ hactive
    rw [hwrites]
    rcases hother with hother | hother | hmem
    · have hsaved : other = room := hother.trans (Function.update_self ..)
      exact Or.inr (Or.inr (hsaved ▸ List.mem_cons_self))
    · exact Or.inr (Or.inl hother)
    · exact Or.inr (Or.inr (List.mem_cons_of_mem _ hmem))
  · show WritesFit (Function.update s.rooms task.key room task.key) rest
    rw [Function.update_self]
    exact hfit.2
  · intro _ hsaving
    simp [hfit.1, RoomWrite.isSaveRow] at hsaving

/-- The row of an active room is there, and has a lease to write over. -/
theorem leased_passes {write : RoomWrite} (h : Leased task.vaultId task.fileId s)
    (htask : s.tasks.get? task.key = some task) (hwrites : task.writes = write :: rest)
    (hnothing : ∀ activeUntil, write = .saveRow activeUntil →
      s.data.getFile task.vaultId task.fileId = none)
    (hroom : ∀ room, write ≠ .saveRoom room) (hown : RowsOwn (s.proceed task rest)) :
    Leased task.vaultId task.fileId (s.proceed task rest) := by
  have hfit : WritesFit (s.rooms task.key) (write :: rest) := hwrites ▸ h.fit task htask
  refine leased_proceed hown ?_ (writesFit_tail hroom hfit) ?_
  · intro other hother hactive
    refine h.hasRow_task htask other ?_ hactive
    rw [hwrites]
    exact hother.imp_right (Or.imp_right (List.mem_cons_of_mem _))
  · intro hactive _ row hrow
    cases write with
    | saveRoom saved => exact absurd rfl (hroom saved)
    | saveRow activeUntil => simp [hnothing activeUntil rfl] at hrow
    | clearRow => simp [hfit.1] at hactive

/-- The row is read as it is. -/
theorem leased_reads {file : StoredFile} (h : Leased task.vaultId task.fileId s)
    (htask : s.tasks.get? task.key = some task)
    (hrow : s.data.getFile task.vaultId task.fileId = some file)
    (hown : RowsOwn { s with tasks := s.tasks.set { task with row := some file } }) :
    Leased task.vaultId task.fileId
      { s with tasks := s.tasks.set { task with row := some file } } := by
  let task' : Bookkeeping := { task with row := some file }
  have htask' : (s.tasks.set task').get? (task.vaultId, task.fileId) = some task' :=
    Table.get?_set_self s.tasks task'
  have hsaving : ({ s with tasks := s.tasks.set task' } : RowStore).saving task.vaultId
      task.fileId = s.saving task.vaultId task.fileId := by
    have htask : s.tasks.get? (task.vaultId, task.fileId) = some task := htask
    rw [RowStore.saving, htask', RowStore.saving, htask]
    rfl
  refine ⟨hown, ?_, ?_, ?_, ?_⟩
  · rintro room hroom hactive
    refine h.hasRow_task htask room ?_ hactive
    rcases hroom with hroom | hroom | ⟨other, hother, hmem⟩
    · exact Or.inl hroom
    · exact Or.inr (Or.inl hroom)
    · obtain rfl := Option.some.inj (htask'.symm.trans hother)
      exact Or.inr (Or.inr hmem)
  · intro other hother
    obtain rfl := Option.some.inj (htask'.symm.trans hother)
    exact h.fit task htask
  · rw [hsaving]
    exact h.lease
  · intro _ other hother read hread
    obtain rfl := Option.some.inj (htask'.symm.trans hother)
    obtain rfl : file = read := Option.some.inj hread
    show (s.data.getFile task.vaultId task.fileId).map StoredFile.content = _
    rw [hrow]
    rfl

/-- The row that was read is written back with the lease of the room. -/
theorem leased_saves {write : RoomWrite} {file written : StoredFile}
    (h : Leased task.vaultId task.fileId s) (htask : s.tasks.get? task.key = some task)
    (hwrites : task.writes = write :: rest) (hrow : task.row = some file)
    (hwritten : write.written file = some written)
    (hown : RowsOwn
      (({ s with data := s.data.saveFile (written.stamped stamp) } : RowStore).proceed task rest)) :
    Leased task.vaultId task.fileId
        (({ s with data := s.data.saveFile (written.stamped stamp) } : RowStore).proceed task
          rest) ∧
      ((s.rooms task.key).active = true →
        ((s.data.saveFile (written.stamped stamp)).getFile task.vaultId task.fileId).map
            StoredFile.content
          = (s.data.getFile task.vaultId task.fileId).map StoredFile.content) := by
  have hfit : WritesFit (s.rooms task.key) (write :: rest) := hwrites ▸ h.fit task htask
  have hroom : ∀ saved, write ≠ .saveRoom saved := by
    rintro saved rfl
    simp [RoomWrite.written] at hwritten
  have hsame : withoutLease (written.stamped stamp) = withoutLease file :=
    (withoutLease_stamped written stamp).trans (withoutLease_of_written hwritten)
  have hkey : (written.stamped stamp).key = (task.vaultId, task.fileId) :=
    (key_of_withoutLease hsame).trans
      (h.own task (Table.get?_eq_some_iff.mp htask).1 file hrow)
  have hget : (s.data.saveFile (written.stamped stamp)).getFile task.vaultId task.fileId
      = some (written.stamped stamp) := by
    rw [Store.getFile_saveFile, if_pos hkey]
  refine ⟨leased_proceed hown ?_ (writesFit_tail hroom hfit) ?_, ?_⟩
  · intro room _ _
    rw [hget]
    rfl
  · intro hactive _ saved hsaved
    obtain rfl := Option.some.inj (hget.symm.trans hsaved)
    show written.activeUntil = _
    exact activeUntil_of_written hfit hwritten hactive
  · intro hactive
    have hcontent : (written.stamped stamp).content = file.content := leaseless_content.eq hsame
    rw [hget, Option.map_some, hcontent]
    exact (h.read hactive task htask file hrow).symm

/-- **A call on a store by the call in progress** keeps the lease of the room that of the row,
and the content. -/
theorem leased_nextCall (h : Leased task.vaultId task.fileId s)
    (htask : s.tasks.get? task.key = some task)
    (hcall : RowStore.NextCall s task stamp t) (hown : RowsOwn t) :
    Leased task.vaultId task.fileId t ∧ ((s.rooms task.key).active = true →
      (t.data.getFile task.vaultId task.fileId).map StoredFile.content
        = (s.data.getFile task.vaultId task.fileId).map StoredFile.content) := by
  cases hcall with
  | savesRoom writes =>
    refine ⟨leased_savesRoom h htask writes hown, fun _ => ?_⟩
    rw [RowStore.data_proceed]
    rfl
  | passes writes nothing room =>
    refine ⟨leased_passes h htask writes nothing room hown, fun _ => ?_⟩
    rw [RowStore.data_proceed]
  | reads row => exact ⟨leased_reads h htask row hown, fun _ => rfl⟩
  | saves writes row isWritten =>
    rw [RowStore.data_proceed]
    exact leased_saves h htask writes row isWritten hown

end Call

/-- **The next call on a store** keeps the lease of the room that of the row, and while the room
is active the content. -/
theorem leased_next (h : Leased vaultId fileId s) (nextVault nextFile : String)
    (stamp : Option Time) :
    Leased vaultId fileId (s.next nextVault nextFile stamp) ∧
      Exclusive P vaultId fileId s (.next nextVault nextFile stamp) := by
  have hown : RowsOwn (s.next nextVault nextFile stamp) :=
    rowsOwn_rowStep (P := P) h.own (.next nextVault nextFile stamp)
  by_cases hkey : (nextVault, nextFile) = (vaultId, fileId)
  case neg =>
    obtain ⟨hdata, hrooms, hmemory, htasks⟩ := frame_next h.own stamp hkey
    refine ⟨h.of_frame hown hdata hrooms hmemory htasks, fun _ => ?_⟩
    rw [hdata]
  obtain ⟨rfl, rfl⟩ := Prod.mk.inj hkey
  rcases s.next_cases nextVault nextFile stamp with hnext | ⟨task, htask, hcall⟩
  · rw [hnext]
    exact ⟨h, fun _ => by rw [hnext]⟩
  obtain ⟨rfl, rfl⟩ := Prod.mk.inj (Table.get?_eq_some_iff.mp htask).2
  exact leased_nextCall h htask hcall hown

/-! ### Ops and resolutions -/

/-- A call from outside leaves the lease of a row, unless it creates the file anew. -/
theorem lease_serverStep (event : ServerEvent) {data : Store} {file : StoredFile}
    (hfile : data.getFile vaultId fileId = some file)
    (hcreate : ∀ now uuid op userId, event = .process now uuid op userId →
      isOn vaultId fileId op = true → op.kind = .create →
      accepted P now uuid op userId data = none) :
    ∃ file' ∈ (serverStep P data event).getFile vaultId fileId,
      file'.activeUntil = file.activeUntil := by
  rw [getFile_serverStep]
  cases hwritten : writtenFile P data event with
  | none => exact ⟨file, hfile, rfl⟩
  | some written =>
    dsimp only
    split
    case isFalse => exact ⟨file, hfile, rfl⟩
    next hkey =>
    refine ⟨written, rfl, ?_⟩
    cases event with
    | process now uuid op userId =>
      obtain ⟨applied, ha, rfl⟩ := Option.map_eq_some_iff.mp hwritten
      have heffect := (accepted_spec ha).effect
      have hown : (op.vaultId, op.fileId) = (vaultId, fileId) :=
        (key_of_effect heffect).symm.trans hkey
      rw [Prod.mk.injEq] at hown
      have hrow : opRow op data = some file := by rw [opRow, hown.1, hown.2, hfile]
      cases heffect with
      | created kind =>
        have hnone := hcreate now uuid op userId rfl (by simp [isOn, hown]) kind
        simp [ha] at hnone
      | updated row | conflicted row | lostRename row | renamed row | deleted row
      | restored row =>
        obtain rfl := Option.some.inj (hrow.symm.trans row)
        rfl
    | resolve now input =>
      obtain ⟨r, hr, rfl⟩ := Option.map_eq_some_iff.mp hwritten
      have hmem := (resolves_of_resolution hr).file
      obtain rfl := Option.some.inj ((getFile_of_key hmem hkey).symm.trans hfile)
      rfl
    | claim | release | saveDevice | setRole | saveBlob | putContent =>
      simp [writtenFile] at hwritten

/-- An op that is not accepted, or is on another file, leaves the content of the note, and so
does one that is no content op. -/
theorem noteContent_process {data : Store} {now : Time} {uuid : Uuid} {op : FileOp}
    {userId : Option String}
    (h : isOn vaultId fileId op = true → op.kind.isContent = true →
      accepted P now uuid op userId data = none) :
    ((process P now uuid op userId data).2.getFile vaultId fileId).map StoredFile.content
      = (data.getFile vaultId fileId).map StoredFile.content := by
  have hget := getFile_serverStep P data (.process now uuid op userId) vaultId fileId
  rw [serverStep, writtenFile] at hget
  rw [hget]
  cases ha : accepted P now uuid op userId data with
  | none => rfl
  | some applied =>
    simp only [Option.map_some]
    split
    case isFalse => rfl
    next hkey =>
    have heffect := (accepted_spec ha).effect
    have hown : (op.vaultId, op.fileId) = (vaultId, fileId) :=
      (key_of_effect heffect).symm.trans hkey
    rw [Prod.mk.injEq] at hown
    have hlayer : op.kind.isContent = false := by
      rw [← Bool.not_eq_true]
      intro hkind
      simp [h (by simp [isOn, hown]) hkind] at ha
    have hrow : opRow op data = data.getFile vaultId fileId := by
      rw [opRow, hown.1, hown.2]
    cases heffect with
    | created kind | restored row kind => simp [kind, OpKind.isContent] at hlayer
    | updated row kind | conflicted row kind =>
      rcases kind with ⟨kind, -⟩ | kind <;> simp [kind, OpKind.isContent] at hlayer
    | lostRename row => rw [← hrow, row, Option.map_some]
    | renamed row | deleted row =>
      rw [← hrow, row]
      rfl

/-- In the lease of the room the lease of the row has not run out. -/
theorem Leased.rowActive (h : Leased vaultId fileId s)
    (hactive : (s.rooms (vaultId, fileId)).active = true) {now : Time}
    (hlease : s.LeaseLeft vaultId fileId now) :
    (s.data.getFile vaultId fileId).any (isActive now) = true := by
  obtain ⟨row, hrow⟩ := Option.isSome_iff_exists.mp (h.hasRow _ (Or.inl rfl) hactive)
  have hrow' : isActive now row = row.activeUntil.any fun leaseUntil => leaseUntil > now := by
    unfold isActive
    cases row.activeUntil <;> rfl
  rw [hrow, Option.any_some, hrow']
  unfold RowStore.LeaseLeft at hlease
  cases hsaving : s.saving vaultId fileId with
  | true =>
    rw [hsaving, if_pos rfl] at hlease
    obtain ⟨same, hsame, hlease⟩ := hlease
    obtain rfl := Option.some.inj (hrow.symm.trans hsame)
    exact hlease
  | false =>
    rw [hsaving, if_neg Bool.false_ne_true, ← h.lease hactive hsaving row hrow] at hlease
    exact hlease

/-- **In the lease of its room** a note is left alone. -/
theorem excluded_of_inLease (h : Leased vaultId fileId s) {event : ServerEvent}
    (hactive : (s.rooms (vaultId, fileId)).active = true)
    (hlease : InLease P vaultId fileId s event) (hroom : ofRoom vaultId fileId event = false) :
    Excluded P vaultId fileId s.data event := by
  cases event with
  | process now uuid op userId =>
    have hrefused : isOn vaultId fileId op = true → op.kind.isContent = true →
        reaches P op userId s.data = true →
        (process P now uuid op userId s.data).1 = .ok (fileActive op) := by
      intro hon hkind hreaches
      have hdevice : syntheticCollab op = false := by
        simpa [ofRoom, hon] using hroom
      have hnote : op.vaultId = vaultId ∧ op.fileId = fileId := by simpa [isOn] using hon
      rw [fileActive_iff hreaches hkind hdevice, opRow, hnote.1, hnote.2]
      exact h.rowActive hactive (hlease hon hdevice hkind hreaches)
    refine ⟨noteContent_process fun hon hkind => ?_, ?_⟩
    · cases ha : accepted P now uuid op userId s.data with
      | none => rfl
      | some applied =>
        have hanswer := hrefused hon hkind (reaches_of_accepted ha)
        simp [process_of_accepted ha, fileActive, reject] at hanswer
    · intro _ _ _ _ hevent
      obtain ⟨rfl, rfl, rfl, rfl⟩ : now = _ ∧ uuid = _ ∧ op = _ ∧ userId = _ := by
        simpa using hevent
      exact hrefused
  | resolve now input =>
    refine ⟨?_, fun _ _ _ _ h => by simp at h⟩
    rw [getFile_serverStep]
    cases hr : resolution P input s.data with
    | none => simp [writtenFile, hr]
    | some r =>
      have hkey : (resolvedFile now input r.conflict r.content r.file).key
          = (r.conflict.vaultId, r.conflict.fileId) :=
        (pending_iff.mp (resolves_of_resolution hr).pending).1.symm
      simp only [writtenFile, hr, Option.map_some, hkey, if_neg (hlease r hr)]
  | claim | release | saveDevice | setRole | saveBlob | putContent =>
    refine ⟨?_, fun _ _ _ _ h => by simp at h⟩
    rw [getFile_serverStep]
    rfl

/-- Where a content op that gets to the row is refused, none is accepted. -/
theorem Excluded.not_accepted {data : Store} {now : Time} {uuid : Uuid} {op : FileOp}
    {userId : Option String} (h : Excluded P vaultId fileId data (.process now uuid op userId))
    (hon : isOn vaultId fileId op = true) (hkind : op.kind.isContent = true) :
    accepted P now uuid op userId data = none := by
  cases ha : accepted P now uuid op userId data with
  | none => rfl
  | some applied =>
    have hrefused := h.2 now uuid op userId rfl hon hkind (reaches_of_accepted ha)
    simp [process_of_accepted ha, fileActive, reject] at hrefused

/-- **What commits in the lease of the room** leaves the lease in the row. -/
theorem leased_commit (h : Leased vaultId fileId s) {event : ServerEvent}
    (hupdates : RoomUpdates vaultId fileId s (.commit event))
    (hruns : LeaseRuns P vaultId fileId s (.commit event)) :
    Leased vaultId fileId (rowStep P s (.commit event)) := by
  refine ⟨h.own, ?_, h.fit, ?_, ?_⟩
  · intro room hroom hactive
    obtain ⟨file, hfile⟩ := Option.isSome_iff_exists.mp (h.hasRow room hroom hactive)
    rw [getFile_commit]
    split
    · rw [hfile]
      rfl
    · split
      · rfl
      · rw [hfile]
        rfl
  · intro hactive hsaving row hrow
    have hactive : (s.rooms (vaultId, fileId)).active = true := hactive
    obtain ⟨file, hfile⟩ := Option.isSome_iff_exists.mp (h.hasRow _ (Or.inl rfl) hactive)
    obtain ⟨file', hfile', hsame⟩ := lease_serverStep (P := P) event hfile (by
      rintro now uuid op userId rfl hon hkind
      cases hcollab : syntheticCollab op with
      | true =>
        have hupdate : op.kind = .update := hupdates hon hcollab
        simp [hkind] at hupdate
      | false =>
        have hexcluded := excluded_of_inLease h hactive (hruns hactive).1
          (by simp [ofRoom, hcollab])
        exact hexcluded.not_accepted hon (by rw [hkind]; rfl))
    obtain rfl := Option.some.inj ((Option.mem_def.mp hfile').symm.trans hrow)
    exact hsame.trans (h.lease hactive hsaving file hfile)
  · intro hactive task htask row hrow
    have hactive : (s.rooms (vaultId, fileId)).active = true := hactive
    rw [getFile_commit]
    cases hw : writtenFile P s.data event with
    | none => exact h.read hactive task htask row hrow
    | some file =>
      dsimp only
      split
      · next hkey =>
        rw [Option.map_some, (hruns hactive).2 file hw hkey task htask row hrow]
      · exact h.read hactive task htask row hrow

/-! ### Runs -/

/-- **The lease of an active room is that of its row**, but between the two writes of a call. -/
theorem leased_rowStep {e : RowEvent} (h : Leased vaultId fileId s)
    (hupdates : RoomUpdates vaultId fileId s e) (hruns : LeaseRuns P vaultId fileId s e) :
    Leased vaultId fileId (rowStep P s e) := by
  have hown : RowsOwn (rowStep P s e) := rowsOwn_rowStep h.own e
  cases e with
  | start startVault startFile call => exact leased_start h startVault startFile call
  | next nextVault nextFile stamp => exact (leased_next (P := P) h nextVault nextFile stamp).1
  | fails failVault failFile =>
    by_cases hkey : (failVault, failFile) = (vaultId, fileId)
    · refine h.of_ended hown rfl rfl (fun _ hroom => hroom) ?_ (hruns hkey)
      exact (Table.get?_erase _ _ _).trans (if_pos hkey.symm)
    · refine h.of_frame hown rfl rfl rfl ?_
      exact (Table.get?_erase _ _ _).trans (if_neg (Ne.symm hkey))
  | commit event => exact leased_commit h hupdates hruns
  | restart =>
    exact h.of_ended hown rfl rfl (fun _ hroom => by simp [rowStep] at hroom) rfl hruns

theorem exclusive_rowStep {e : RowEvent} (h : Leased vaultId fileId s)
    (hruns : LeaseRuns P vaultId fileId s e) : Exclusive P vaultId fileId s e := by
  cases e with
  | next nextVault nextFile stamp => exact (leased_next (P := P) h nextVault nextFile stamp).2
  | commit event =>
    exact fun hactive hroom => excluded_of_inLease h hactive (hruns hactive).1 hroom
  | start | fails | restart => trivial

end

/-- **One authority for the content.**  From any store without rooms, and however the calls of
the rooms on the stores fall between ops and resolutions, nothing but the ops of the room changes
the content of its note while the room is stored as active, and content ops of devices are
refused for it, as long as these come while its lease runs, no conflict of the note is resolved
while it is active, and no call is cut off or disturbed between its writes. -/
theorem exclusive_of_leaseRuns (P : Platform) (vaultId fileId : String) (data : Store)
    {es : List RowEvent}
    (hupdates : Run.EachStep (rowStep P) (RoomUpdates vaultId fileId) (RowStore.initial data) es)
    (hruns : Run.EachStep (rowStep P) (LeaseRuns P vaultId fileId) (RowStore.initial data) es) :
    Run.EachStep (rowStep P) (Exclusive P vaultId fileId) (RowStore.initial data) es :=
  Run.eachStep_of_invariant (C := fun s e => RoomUpdates vaultId fileId s e ∧
      LeaseRuns P vaultId fileId s e)
    (fun _ _ h he => leased_rowStep h he.1 he.2) (fun _ _ h he => exclusive_rowStep h he.2)
    (leased_initial vaultId fileId data) (hupdates.and hruns)

/-! ### A room without updates -/

/-- An update of the note by the device that created it. -/
def sampleEdit (now : Time) : RowEvent :=
  .commit (.process now sampleUuid
    (sampleContentOp .update "o2" "d1" "f1" 2 none (sampleVV "d1" 2) "two") (some "u"))

/-- An update is refused while the room has its first lease, and while it has the one of a
heartbeat, and meets the row once the room is closed. -/
theorem exclusive_heartbeat :
    Run.EachStep (rowStep samplePlatform) (Exclusive samplePlatform "v" "f1")
      (RowStore.initial sampleStore)
      (sampleNote ++ [sampleEdit 60001, .start "v" "f1" (.heartbeat 120001), .next "v" "f1" none,
        sampleEdit 60001, .next "v" "f1" none, .next "v" "f1" (some 60002), sampleEdit 120000,
        .start "v" "f1" .demoteLocked, .next "v" "f1" none, .next "v" "f1" none,
        .next "v" "f1" (some 120001), .next "v" "f1" none, sampleEdit 120002]) :=
  exclusive_of_leaseRuns samplePlatform "v" "f1" sampleStore (by decide +kernel)
    (by decide +kernel)

/-- The room is open, nobody has edited for the time of the lease, and an update comes. -/
def sampleIdle : List RowEvent := sampleNote ++ [sampleEdit 60002]

/-- **It is taken**, with the room stored as active and its participant in it. -/
theorem not_exclusive_idle :
    Run.EachStep (rowStep samplePlatform) (RoomUpdates "v" "f1") (RowStore.initial sampleStore)
        sampleIdle ∧
      ¬ Run.EachStep (rowStep samplePlatform) (Exclusive samplePlatform "v" "f1")
        (RowStore.initial sampleStore) sampleIdle := by
  refine ⟨by decide +kernel, ?_⟩
  rw [sampleIdle, Run.eachStep_append]
  rintro ⟨-, h, -⟩
  exact absurd (h (by decide +kernel) (by decide +kernel)).1 (by decide +kernel)

/-- **So is an update** that comes when the promotion has stored the room and not yet written the
row. -/
theorem not_exclusive_betweenWrites :
    ¬ Run.EachStep (rowStep samplePlatform) (Exclusive samplePlatform "v" "f1")
      (RowStore.initial sampleStore) (sampleNote.take 3 ++ [sampleEdit 3]) := by
  rw [Run.eachStep_append]
  rintro ⟨-, h, -⟩
  exact absurd (h (by decide +kernel) (by decide +kernel)).1 (by decide +kernel)

end ObsidianSync
