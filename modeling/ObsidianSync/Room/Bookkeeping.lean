import ObsidianSync.Lib.Run
import ObsidianSync.Room.Spec

/-!
# Lease bookkeeping between transactions

The room manager stores the lease of a room with the room and keeps a copy in the row of
its file.  It stores the room, reads the row and writes it back whole with the lease, in
three calls on the stores that no transaction holds together, while ops and resolutions
commit between them.

Of a room only its activity and its lease are modelled, in the store and in memory; a call
starts when it has passed the checks that need more than these and the row.

## Main definitions

* `RoomCall.writes` — the writes of the calls of the manager.
* `RowStore`, `rowStep` — the store, the rooms, the bookkeeping under way, and a ghost copy
  of the rows as transactions last wrote them.
* `RowsCommitted` — every row is as it was last committed, up to its lease and its stamp.
* `Undisturbed` — no transaction changes a row between the read and the write, as far as a
  view of the rows shows.

## Main results

* `view_next` — a call of an undisturbed run changes nothing that the view shows.
* `rowsCommitted_of_undisturbed` — the bookkeeping of an undisturbed run undoes
  nothing.
* `not_rowsCommitted_of_commit_between` — a change that commits between the read and
  the write is undone.
* `not_rowsCommitted_deleteDuringHeartbeat` — so a deleted file comes back.
* `store_final_calls` — without interruption the calls do what `Room.Manager` says.
-/

namespace ObsidianSync

/-! ### The writes of a call -/

/-- What the row of a file has from its room: whether it is active, and its lease. -/
structure StoredLease where
  active : Bool := false
  leaseUntil : Option Time := none
  deriving DecidableEq, Repr

/-- The lease that goes into the row. -/
def StoredLease.activeUntil (room : StoredLease) : Option Time :=
  if room.active then room.leaseUntil else none

/-- A write of a call: of the room, or of the row, which is read and written back with
another lease, at the end of a close only if there is a lease to drop. -/
inductive RoomWrite
  | saveRoom (room : StoredLease)
  | saveRow (activeUntil : Option Time)
  | clearRow
  deriving DecidableEq, Repr

namespace RoomWrite

/-- What is written back over the row, if anything. -/
def written (file : StoredFile) : RoomWrite → Option StoredFile
  | saveRoom _ => none
  | saveRow activeUntil => some { file with activeUntil }
  | clearRow => if file.activeUntil.isSome then some { file with activeUntil := none } else none

/-- The read and the write without anything between them. -/
def run (vaultId fileId : String) (data : Store) : RoomWrite → Store
  | saveRoom _ => data
  | saveRow activeUntil => setActiveUntil vaultId fileId activeUntil data
  | clearRow => clearActiveUntil vaultId fileId data

end RoomWrite

/-- The calls of the room manager that write the row of their file. -/
inductive RoomCall
  | promote (leaseUntil : Time) (activates : Bool)
  | handleUpdate (leaseUntil : Time)
  | heartbeat (leaseUntil : Time)
  | compact
  | restoreHistoryVersion
  | demoteLocked
  | closeWithoutFlush
  deriving DecidableEq, Repr

namespace RoomCall

/-- Whether a call gets as far as its writes: a promotion finds the file live and not
encrypted, and activates a dormant room; an update, a heartbeat and a close find the room
active. -/
def passes (room : StoredLease) (file : Option StoredFile) : RoomCall → Bool
  | promote _ activates =>
    file.any (fun file => !file.deleted && file.contentEncoding.isNone) &&
      (activates || room.active)
  | handleUpdate _ | heartbeat _ | demoteLocked | closeWithoutFlush => room.active
  | compact | restoreHistoryVersion => true

/-- What the call makes of the room. -/
def room (room : StoredLease) : RoomCall → StoredLease
  | promote leaseUntil _ => { active := true, leaseUntil := some leaseUntil }
  | handleUpdate leaseUntil | heartbeat leaseUntil => { room with leaseUntil := some leaseUntil }
  | compact | restoreHistoryVersion => room
  | demoteLocked | closeWithoutFlush => { active := false, leaseUntil := none }

/-- `saveRuntime`. -/
def saveRuntime (room : StoredLease) : List RoomWrite :=
  [.saveRoom room, .saveRow room.activeUntil]

/-- The writes of a call, one after the other: an activation saves the room before the lease
is renewed, and a close drops the lease of the row once more. -/
def writes (old : StoredLease) (call : RoomCall) : List RoomWrite :=
  match call with
  | promote _ activates =>
    (if activates then saveRuntime (call.room old) else []) ++ saveRuntime (call.room old)
  | handleUpdate _ | heartbeat _ | compact | restoreHistoryVersion => saveRuntime (call.room old)
  | demoteLocked | closeWithoutFlush => saveRuntime (call.room old) ++ [.clearRow]

end RoomCall

/-! ### Calls in progress -/

/-- A call under the lock of its room: the row it has read and is about to write,
and the writes that are left. -/
structure Bookkeeping where
  vaultId : String
  fileId : String
  row : Option StoredFile := none
  writes : List RoomWrite

/-- The file of a call. -/
def Bookkeeping.key (task : Bookkeeping) : String × String := (task.vaultId, task.fileId)

/-- The store, the rooms as they are stored and as the manager has them in memory, the calls
in progress, and the rows as transactions last wrote them.  Nothing reads the last field. -/
structure RowStore where
  data : Store
  rooms : String × String → StoredLease := fun _ => {}
  memory : String × String → Option StoredLease := fun _ => none
  tasks : Table Bookkeeping.key := Table.empty
  committed : Table StoredFile.key

/-- A store nobody works on, without rooms. -/
def RowStore.initial (data : Store) : RowStore := { data, committed := data.files }

/-- What happens between the calls on the stores. -/
inductive RowEvent
  /-- A call of the manager gets the lock of its room. -/
  | start (vaultId fileId : String) (call : RoomCall)
  /-- The call in progress on a file makes its next call on a store.  The tables stamp a row
  that they write. -/
  | next (vaultId fileId : String) (stamp : Option Time)
  /-- The next call on a store throws, and the call with it. -/
  | fails (vaultId fileId : String)
  /-- A transaction commits. -/
  | commit (event : ServerEvent)
  /-- The server dies and comes up again. -/
  | restart

/-- A row as a write with a stamp leaves it. -/
def StoredFile.stamped (file : StoredFile) (stamp : Option Time) : StoredFile :=
  { file with updatedAt := stamp.getD file.updatedAt }

namespace RowStore

/-- The room in memory, where it is loaded from the store. -/
def persisted (s : RowStore) (key : String × String) : StoredLease :=
  (s.memory key).getD (s.rooms key)

/-- The call goes on with `writes` left, or is over. -/
def proceed (s : RowStore) (task : Bookkeeping) (writes : List RoomWrite) : RowStore :=
  match writes with
  | [] => { s with tasks := s.tasks.erase task.key }
  | writes => { s with tasks := s.tasks.set { task with row := none, writes } }

/-- `saveRoom`. -/
def saveRoom (s : RowStore) (key : String × String) (room : StoredLease) : RowStore :=
  { s with rooms := Function.update s.rooms key room }

/-- `getFile` and the decision whether to write. -/
def read (s : RowStore) (task : Bookkeeping) (write : RoomWrite) (rest : List RoomWrite) :
    RowStore :=
  match s.data.getFile task.vaultId task.fileId with
  | none => s.proceed task rest
  | some file =>
    if (write.written file).isSome then
      { s with tasks := s.tasks.set { task with row := some file } }
    else s.proceed task rest

/-- `saveFile` with the row that was read. -/
def save (s : RowStore) (task : Bookkeeping) (file : StoredFile) (write : RoomWrite)
    (rest : List RoomWrite) (stamp : Option Time) : RowStore :=
  match write.written file with
  | none => s.proceed task rest
  | some written => { s with data := s.data.saveFile (written.stamped stamp) }.proceed task rest

/-- The next call on a store of the call in progress. -/
def next (s : RowStore) (vaultId fileId : String) (stamp : Option Time) : RowStore :=
  match s.tasks.get? (vaultId, fileId) with
  | none => s
  | some task =>
    match task.writes with
    | [] => s
    | .saveRoom room :: rest => (s.saveRoom task.key room).proceed task rest
    | write :: rest =>
      match task.row with
      | none => s.read task write rest
      | some file => s.save task file write rest stamp

/-- A call that gets the lock; one that comes while another holds it waits. -/
def start (s : RowStore) (vaultId fileId : String) (call : RoomCall) : RowStore :=
  match s.tasks.get? (vaultId, fileId) with
  | some _ => s
  | none =>
    let old := s.persisted (vaultId, fileId)
    if call.passes old (s.data.getFile vaultId fileId) then
      { s with
        memory := Function.update s.memory (vaultId, fileId) (some (call.room old))
        tasks := s.tasks.set { vaultId, fileId, writes := call.writes old } }
    else s

end RowStore

/-- The store after an event. -/
def rowStep (P : Platform) (s : RowStore) : RowEvent → RowStore
  | .start vaultId fileId call => s.start vaultId fileId call
  | .next vaultId fileId stamp => s.next vaultId fileId stamp
  | .fails vaultId fileId => { s with tasks := s.tasks.erase (vaultId, fileId) }
  | .commit event =>
    { s with
      data := serverStep P s.data event
      committed := match writtenFile P s.data event with
        | none => s.committed
        | some file => s.committed.set file }
  | .restart => { s with memory := fun _ => none, tasks := Table.empty }

/-! ### What may be lost -/

/-- A row without its lease and the stamp of its last write. -/
def withoutLease (file : StoredFile) : StoredFile :=
  { file with activeUntil := none, updatedAt := 0 }

/-- Every row is as a transaction last wrote it, up to its lease and its stamp. -/
def RowsCommitted (s : RowStore) : Prop :=
  ∀ vaultId fileId, (s.data.getFile vaultId fileId).map withoutLease
    = (s.committed.get? (vaultId, fileId)).map withoutLease

/-- No transaction changes what the view shows of a row that a call has read and not written
yet. -/
def Undisturbed {α : Type} (view : StoredFile → α) (P : Platform) (s : RowStore) :
    RowEvent → Prop
  | .commit event => ∀ file ∈ writtenFile P s.data event, ∀ task ∈ s.tasks.get? file.key,
      ∀ row ∈ task.row, view file = view row
  | _ => True

instance {α : Type} [DecidableEq α] (view : StoredFile → α) (P : Platform) (s : RowStore)
    (e : RowEvent) : Decidable (Undisturbed view P s e) :=
  match e with
  | .commit _ => by unfold Undisturbed; infer_instance
  | .start .. | .next .. | .fails .. | .restart => isTrue trivial

/-- A view that shows neither lease nor stamp. -/
def Leaseless {α : Type} (view : StoredFile → α) : Prop :=
  ∀ file, view (withoutLease file) = view file

/-! ### What a call on the store does -/

@[simp] theorem withoutLease_withoutLease (file : StoredFile) :
    withoutLease (withoutLease file) = withoutLease file := rfl

@[simp] theorem withoutLease_stamped (file : StoredFile) (stamp : Option Time) :
    withoutLease (file.stamped stamp) = withoutLease file := rfl

theorem key_withoutLease (file : StoredFile) : (withoutLease file).key = file.key := rfl

theorem leaseless_withoutLease : Leaseless withoutLease := withoutLease_withoutLease

/-- Rows that differ in lease and stamp only look the same. -/
theorem Leaseless.eq {α : Type} {view : StoredFile → α} (hview : Leaseless view)
    {file row : StoredFile} (h : withoutLease file = withoutLease row) : view file = view row := by
  rw [← hview file, h, hview row]

/-- Rows that differ in lease and stamp only are of one file. -/
theorem key_of_withoutLease {file row : StoredFile} (h : withoutLease file = withoutLease row) :
    file.key = row.key := by
  rw [← key_withoutLease, h, key_withoutLease]

/-- What is written back differs from what was read in its lease only. -/
theorem withoutLease_of_written {write : RoomWrite} {file written : StoredFile}
    (h : write.written file = some written) : withoutLease written = withoutLease file := by
  cases write with
  | saveRoom room => simp [RoomWrite.written] at h
  | saveRow activeUntil =>
    obtain rfl : { file with activeUntil } = written := by simpa [RoomWrite.written] using h
    rfl
  | clearRow =>
    by_cases hlease : file.activeUntil.isSome
    · obtain rfl : { file with activeUntil := none } = written := by
        simpa [RoomWrite.written, hlease] using h
      rfl
    · simp [RoomWrite.written, hlease] at h

namespace RowStore

variable {s : RowStore} {task other : Bookkeeping} {writes rest : List RoomWrite}

@[simp] theorem data_proceed : (s.proceed task writes).data = s.data := by
  cases writes <;> rfl

@[simp] theorem committed_proceed : (s.proceed task writes).committed = s.committed := by
  cases writes <;> rfl

@[simp] theorem rooms_proceed : (s.proceed task writes).rooms = s.rooms := by
  cases writes <;> rfl

@[simp] theorem memory_proceed : (s.proceed task writes).memory = s.memory := by
  cases writes <;> rfl

/-- After a call went on, the others are as they were, and it has read nothing and has its
other writes to make. -/
theorem mem_tasks_proceed (h : other ∈ (s.proceed task writes).tasks.rows) :
    other = { task with row := none, writes } ∨
      (other ∈ s.tasks.rows ∧ other.key ≠ task.key) := by
  cases writes with
  | nil => exact Or.inr (Table.mem_erase_iff.mp h)
  | cons write rest => exact Table.mem_set_iff.mp h

/-- The next call on a store, by the call in progress. -/
inductive NextCall (s : RowStore) (task : Bookkeeping) (stamp : Option Time) : RowStore → Prop
  /-- The room is saved. -/
  | savesRoom {room : StoredLease} {rest : List RoomWrite}
      (writes : task.writes = .saveRoom room :: rest) :
      NextCall s task stamp ((s.saveRoom task.key room).proceed task rest)
  /-- There is no row, or nothing to write over it. -/
  | passes {write : RoomWrite} {rest : List RoomWrite} (writes : task.writes = write :: rest)
      (nothing : ∀ activeUntil, write = .saveRow activeUntil →
        s.data.getFile task.vaultId task.fileId = none)
      (room : ∀ room, write ≠ .saveRoom room) :
      NextCall s task stamp (s.proceed task rest)
  /-- The row is read. -/
  | reads {file : StoredFile} (row : s.data.getFile task.vaultId task.fileId = some file) :
      NextCall s task stamp { s with tasks := s.tasks.set { task with row := some file } }
  /-- The row that was read is written back. -/
  | saves {write : RoomWrite} {rest : List RoomWrite} {file written : StoredFile}
      (writes : task.writes = write :: rest) (row : task.row = some file)
      (isWritten : write.written file = some written) :
      NextCall s task stamp
        ({ s with data := s.data.saveFile (written.stamped stamp) }.proceed task rest)

/-- Without a call in progress nothing happens. -/
theorem next_cases (s : RowStore) (vaultId fileId : String) (stamp : Option Time) :
    s.next vaultId fileId stamp = s ∨
    ∃ task, s.tasks.get? (vaultId, fileId) = some task ∧
      NextCall s task stamp (s.next vaultId fileId stamp) := by
  unfold next
  cases htask : s.tasks.get? (vaultId, fileId) with
  | none => exact Or.inl rfl
  | some task =>
    dsimp only
    cases hwrites : task.writes with
    | nil => exact Or.inl rfl
    | cons write rest =>
      refine Or.inr ⟨task, rfl, ?_⟩
      have hrow : (∀ room, write ≠ .saveRoom room) → NextCall s task stamp
          ((task.row.elim (s.read task write rest) fun file =>
            s.save task file write rest stamp)) := by
        intro hroom
        cases hrow : task.row with
        | none =>
          dsimp only [Option.elim, read]
          cases hfile : s.data.getFile task.vaultId task.fileId with
          | none => exact .passes hwrites (fun _ _ => hfile) hroom
          | some file =>
            dsimp only
            split
            · exact .reads hfile
            · next hnothing =>
              refine .passes hwrites ?_ hroom
              rintro activeUntil rfl
              exact absurd rfl hnothing
        | some file =>
          dsimp only [Option.elim, save]
          cases hwritten : write.written file with
          | none =>
            refine .passes hwrites ?_ hroom
            rintro activeUntil rfl
            simp [RoomWrite.written] at hwritten
          | some written => exact .saves hwrites hrow hwritten
      cases write with
      | saveRoom room => exact .savesRoom hwrites
      | saveRow | clearRow =>
        dsimp only
        cases hread : task.row with
        | none | some => simpa [hread] using hrow (by simp)

end RowStore

/-! ### Undisturbed runs -/

/-- The rows that calls have read and not written yet are current, as far as the view shows. -/
def RowsRead {α : Type} (view : StoredFile → α) (s : RowStore) : Prop :=
  ∀ task ∈ s.tasks.rows, ∀ row ∈ task.row, row.key = task.key ∧
    (s.data.getFile task.vaultId task.fileId).map view = some (view row)

section

variable {P : Platform} {s : RowStore} {α : Type} {view : StoredFile → α}

theorem rowsRead_initial (data : Store) : RowsRead view (RowStore.initial data) := by
  intro task htask
  exact absurd htask List.not_mem_nil

theorem rowsCommitted_initial (data : Store) : RowsCommitted (RowStore.initial data) :=
  fun _ _ => rfl

/-- Writing over a row what looks the same leaves all rows as they look. -/
theorem getFile_saveFile_current {data : Store} {row file : StoredFile}
    (hrow : data.getFile file.vaultId file.fileId = some row)
    (hsame : view file = view row) (vaultId fileId : String) :
    ((data.saveFile file).getFile vaultId fileId).map view
      = (data.getFile vaultId fileId).map view := by
  rw [Store.getFile_saveFile]
  split
  · next hkey =>
    obtain ⟨rfl, rfl⟩ := Prod.mk.inj hkey
    rw [hrow, Option.map_some, Option.map_some, hsame]
  · rfl

/-- **The next call on a store writes no row, or writes a current one back.** -/
theorem data_next (hview : Leaseless view) (hread : RowsRead view s) (vaultId fileId : String)
    (stamp : Option Time) :
    (s.next vaultId fileId stamp).data = s.data ∨
    ∃ file row, s.data.getFile file.vaultId file.fileId = some row ∧ view file = view row ∧
      (s.next vaultId fileId stamp).data = s.data.saveFile file := by
  rcases s.next_cases vaultId fileId stamp with h | ⟨task, htask, hcall⟩
  · exact Or.inl (congrArg RowStore.data h)
  generalize s.next vaultId fileId stamp = t at hcall
  cases hcall with
  | savesRoom | passes => exact Or.inl RowStore.data_proceed
  | reads => exact Or.inl rfl
  | @saves write rest read written writes row isWritten =>
    have hmem : task ∈ s.tasks.rows := (Table.get?_eq_some_iff.mp htask).1
    obtain ⟨hkey, hcurrent⟩ := hread task hmem read row
    obtain ⟨current, hget, hsame⟩ := Option.map_eq_some_iff.mp hcurrent
    have hwritten : withoutLease (written.stamped stamp) = withoutLease read :=
      (withoutLease_stamped written stamp).trans (withoutLease_of_written isWritten)
    have hkey' : (written.stamped stamp).vaultId = task.vaultId ∧
        (written.stamped stamp).fileId = task.fileId :=
      Prod.mk.inj ((key_of_withoutLease hwritten).trans hkey)
    refine Or.inr ⟨written.stamped stamp, current, ?_, (hview.eq hwritten).trans hsame.symm,
      RowStore.data_proceed⟩
    rw [hkey'.1, hkey'.2, hget]

/-- **The next call on a store leaves all rows as they look.** -/
theorem view_next (hview : Leaseless view) (hread : RowsRead view s) (vaultId fileId : String)
    (stamp : Option Time) (vaultId' fileId' : String) :
    ((s.next vaultId fileId stamp).data.getFile vaultId' fileId').map view
      = (s.data.getFile vaultId' fileId').map view := by
  rcases data_next hview hread vaultId fileId stamp with h | ⟨file, row, hrow, hsame, h⟩
  · rw [h]
  · rw [h]
    exact getFile_saveFile_current hrow hsame vaultId' fileId'

theorem committed_next (vaultId fileId : String) (stamp : Option Time) :
    (s.next vaultId fileId stamp).committed = s.committed := by
  rcases s.next_cases vaultId fileId stamp with h | ⟨task, htask, hcall⟩
  · rw [h]
  generalize s.next vaultId fileId stamp = t at hcall
  cases hcall with
  | savesRoom | passes | saves => exact RowStore.committed_proceed
  | reads => rfl

/-- After the next call on a store, a call in progress has read what it had, nothing, or a
row that is there. -/
theorem mem_tasks_next {vaultId fileId : String} {stamp : Option Time} {other : Bookkeeping}
    (h : other ∈ (s.next vaultId fileId stamp).tasks.rows) :
    other ∈ s.tasks.rows ∨ other.row = none ∨
      ∃ file, s.data.getFile other.vaultId other.fileId = some file ∧ other.row = some file ∧
        (s.next vaultId fileId stamp).data = s.data := by
  rcases s.next_cases vaultId fileId stamp with hnext | ⟨task, htask, hcall⟩
  · rw [hnext] at h
    exact Or.inl h
  generalize s.next vaultId fileId stamp = t at hcall h
  cases hcall with
  | savesRoom | passes | saves =>
    rcases RowStore.mem_tasks_proceed h with rfl | ⟨hmem, -⟩
    · exact Or.inr (Or.inl rfl)
    · exact Or.inl hmem
  | @reads file row =>
    rcases Table.mem_set_iff.mp h with rfl | ⟨hmem, -⟩
    · exact Or.inr (Or.inr ⟨file, row, rfl, rfl⟩)
    · exact Or.inl hmem

theorem rowsRead_next (hview : Leaseless view) (hread : RowsRead view s)
    (vaultId fileId : String) (stamp : Option Time) :
    RowsRead view (s.next vaultId fileId stamp) := by
  intro task htask row hrow
  rcases mem_tasks_next htask with hmem | hnone | ⟨file, hfile, hsome, hdata⟩
  · rw [view_next hview hread]
    exact hread task hmem row hrow
  · simp [hnone] at hrow
  · obtain rfl : file = row := Option.some.inj (hsome.symm.trans hrow)
    rw [hdata, hfile]
    exact ⟨Table.key_of_get? (t := s.data.files) hfile, rfl⟩

/-- The rows after a commit. -/
theorem getFile_commit (event : ServerEvent) (vaultId fileId : String) :
    (rowStep P s (.commit event)).data.getFile vaultId fileId =
      match writtenFile P s.data event with
      | none => s.data.getFile vaultId fileId
      | some file =>
        if file.key = (vaultId, fileId) then some file else s.data.getFile vaultId fileId :=
  getFile_serverStep P s.data event vaultId fileId

theorem rowsRead_commit {event : ServerEvent}
    (hundisturbed : Undisturbed view P s (.commit event)) (hread : RowsRead view s) :
    RowsRead view (rowStep P s (.commit event)) := by
  intro task htask row hrow
  obtain ⟨hkey, hcurrent⟩ := hread task htask row hrow
  refine ⟨hkey, ?_⟩
  rw [getFile_commit]
  cases hw : writtenFile P s.data event with
  | none => exact hcurrent
  | some file =>
    dsimp only
    split
    · next hfile =>
      have htask' : s.tasks.get? file.key = some task :=
        Table.get?_eq_some_iff.mpr ⟨htask, hfile.symm⟩
      rw [Option.map_some, hundisturbed file hw task htask' row hrow]
    · exact hcurrent

/-- A call that starts writes nothing. -/
theorem start_frame (vaultId fileId : String) (call : RoomCall) :
    (s.start vaultId fileId call).data = s.data ∧
      (s.start vaultId fileId call).committed = s.committed ∧
      (s.start vaultId fileId call).rooms = s.rooms := by
  unfold RowStore.start
  split
  · exact ⟨rfl, rfl, rfl⟩
  dsimp only
  split <;> exact ⟨rfl, rfl, rfl⟩

/-- Nor has it read anything. -/
theorem mem_tasks_start {vaultId fileId : String} {call : RoomCall} {other : Bookkeeping}
    (h : other ∈ (s.start vaultId fileId call).tasks.rows) :
    other ∈ s.tasks.rows ∨ other.row = none := by
  unfold RowStore.start at h
  split at h
  · exact Or.inl h
  dsimp only at h
  split at h
  · rcases Table.mem_set_iff.mp h with rfl | ⟨hmem, -⟩
    · exact Or.inr rfl
    · exact Or.inl hmem
  · exact Or.inl h

theorem rowsRead_start (hread : RowsRead view s) (vaultId fileId : String) (call : RoomCall) :
    RowsRead view (s.start vaultId fileId call) := by
  intro task htask row hrow
  rw [(start_frame vaultId fileId call).1]
  rcases mem_tasks_start htask with hmem | hnone
  · exact hread task hmem row hrow
  · simp [hnone] at hrow

/-- **A step that disturbs no call** leaves the rows that were read current. -/
theorem rowsRead_rowStep (hview : Leaseless view) {e : RowEvent} (hread : RowsRead view s)
    (he : Undisturbed view P s e) : RowsRead view (rowStep P s e) := by
  cases e with
  | start vaultId fileId call => exact rowsRead_start hread vaultId fileId call
  | next vaultId fileId stamp => exact rowsRead_next hview hread vaultId fileId stamp
  | fails vaultId fileId =>
    exact fun task htask => hread task (Table.mem_erase_iff.mp htask).1
  | commit event => exact rowsRead_commit he hread
  | restart => exact fun task htask => absurd htask List.not_mem_nil

/-- While the rows that were read are current, a step undoes nothing. -/
theorem rowsCommitted_rowStep {e : RowEvent} (hread : RowsRead withoutLease s)
    (h : RowsCommitted s) :
    RowsCommitted (rowStep P s e) := by
  intro vaultId fileId
  cases e with
  | start startVault startFile call =>
    obtain ⟨hdata, hcommitted, -⟩ := start_frame (s := s) startVault startFile call
    simp only [rowStep, hdata, hcommitted]
    exact h vaultId fileId
  | next nextVault nextFile stamp =>
    simp only [rowStep]
    rw [view_next leaseless_withoutLease hread, committed_next]
    exact h vaultId fileId
  | fails | restart => exact h vaultId fileId
  | commit event =>
    rw [getFile_commit]
    cases hw : writtenFile P s.data event with
    | none =>
      simp only [rowStep, hw]
      exact h vaultId fileId
    | some file =>
      simp only [rowStep, hw, Table.get?_set]
      split
      · rfl
      · exact h vaultId fileId

end

/-- **The bookkeeping of an undisturbed run undoes nothing.**  If no transaction
changes a row between a read of it by the room manager and the write that follows,
every row is, in every state reached, as the transactions left it, but for its lease and
the stamp of its last write. -/
theorem rowsCommitted_of_undisturbed (P : Platform) (data : Store) (es : List RowEvent)
    (h : Run.EachStep (rowStep P) (Undisturbed withoutLease P) (RowStore.initial data) es) :
    Run.Throughout (rowStep P) RowsCommitted (RowStore.initial data) es := by
  have hinv : Run.Throughout (rowStep P) (fun s => RowsRead withoutLease s ∧ RowsCommitted s)
      (RowStore.initial data) es :=
    Run.throughout_of_invariant
      (fun _ _ h he =>
        ⟨rowsRead_rowStep leaseless_withoutLease h.1 he, rowsCommitted_rowStep h.1 h.2⟩)
      ⟨rowsRead_initial data, rowsCommitted_initial data⟩ h
  exact hinv.mono fun _ h => h.2

/-! ### Disturbed runs -/

/-- **A change that commits between the read and the write is undone**: the write
brings the row back that was read before. -/
theorem not_rowsCommitted_of_commit_between {P : Platform} {s : RowStore} {task : Bookkeeping}
    {row file written : StoredFile} {write : RoomWrite} {rest : List RoomWrite}
    {event : ServerEvent} (stamp : Option Time)
    (htask : s.tasks.get? task.key = some task) (hrow : task.row = some row)
    (hkey : row.key = task.key) (hwrites : task.writes = write :: rest)
    (hwritten : write.written row = some written)
    (hcommit : writtenFile P s.data event = some file) (hfile : file.key = task.key)
    (hchanged : withoutLease file ≠ withoutLease row) :
    ¬ RowsCommitted
      (rowStep P (rowStep P s (.commit event)) (.next task.vaultId task.fileId stamp)) := by
  have htask' : (rowStep P s (.commit event)).tasks.get? (task.vaultId, task.fileId)
      = some task := htask
  have hnext : rowStep P (rowStep P s (.commit event)) (.next task.vaultId task.fileId stamp)
      = ({ rowStep P s (.commit event) with
            data := (serverStep P s.data event).saveFile (written.stamped stamp) } :
          RowStore).proceed task rest := by
    show (rowStep P s (.commit event)).next task.vaultId task.fileId stamp = _
    cases write with
    | saveRoom room => simp [RoomWrite.written] at hwritten
    | saveRow | clearRow =>
      simp only [RowStore.next, htask', hwrites, hrow, RowStore.save, hwritten]
      rfl
  rw [hnext]
  intro h
  have h := h task.vaultId task.fileId
  have hsame : withoutLease (written.stamped stamp) = withoutLease row :=
    (withoutLease_stamped written stamp).trans (withoutLease_of_written hwritten)
  have hkey' : (written.stamped stamp).key = (task.vaultId, task.fileId) :=
    (key_of_withoutLease hsame).trans hkey
  have hfile' : file.key = (task.vaultId, task.fileId) := hfile
  rw [RowStore.data_proceed, RowStore.committed_proceed, Store.getFile_saveFile, if_pos hkey'] at h
  simp only [rowStep, hcommit, Table.get?_set, hfile', if_true, Option.map_some,
    Option.some.injEq] at h
  exact hchanged (h.symm.trans hsame)

/-- A note that is created and promoted: the activation and the lease each save the room and
read and write the row. -/
def sampleNote : List RowEvent :=
  [.commit (.process 1 sampleUuid (sampleContentOp .create "o1" "d1" "f1" 1 (some "a.md")
      (VersionVector.bump VersionVector.emptyVV "d1") "one") (some "u")),
   .start "v" "f1" (.promote 60002 true)] ++ List.replicate 6 (.next "v" "f1" (some 2))

/-- The delete of the note by another device. -/
def sampleNoteDeleted : RowEvent :=
  .commit (.process 3 sampleUuid (sampleDelete "o2" "d2" "f1" 1) (some "u"))

/-- A heartbeat around the delete of the note, which commits after the read. -/
def sampleHeartbeatAroundDelete : List RowEvent :=
  sampleNote ++
    [.start "v" "f1" (.heartbeat 60003), .next "v" "f1" none, .next "v" "f1" none,
     sampleNoteDeleted, .next "v" "f1" (some 3)]

/-- The heartbeat brings the deleted note back. -/
theorem not_rowsCommitted_deleteDuringHeartbeat :
    ¬ Run.Throughout (rowStep samplePlatform) RowsCommitted (RowStore.initial sampleStore)
      sampleHeartbeatAroundDelete := by
  intro h
  have hrow := h.final "v" "f1"
  revert hrow
  decide +kernel

/-- With the heartbeat over before the delete nothing is undone. -/
theorem rowsCommitted_deleteAfterHeartbeat :
    Run.Throughout (rowStep samplePlatform) RowsCommitted (RowStore.initial sampleStore)
      (sampleNote ++
        [.start "v" "f1" (.heartbeat 60003), .next "v" "f1" none, .next "v" "f1" none,
         .next "v" "f1" (some 3), sampleNoteDeleted]) :=
  rowsCommitted_of_undisturbed samplePlatform sampleStore _ (by decide +kernel)

/-! ### Uninterrupted calls

On the store in memory, which stamps no row. -/

section

variable {P : Platform} {vaultId fileId : String}

/-- The call that is left to make some writes. -/
def remaining (vaultId fileId : String) : List RoomWrite → Option Bookkeeping
  | [] => none
  | writes => some { vaultId, fileId, writes }

theorem get?_tasks_proceed (s : RowStore) (task : Bookkeeping) (rest : List RoomWrite) :
    (s.proceed task rest).tasks.get? (task.vaultId, task.fileId)
      = remaining task.vaultId task.fileId rest := by
  cases rest with
  | nil => exact (Table.get?_erase _ _ _).trans (if_pos rfl)
  | cons write rest => exact Table.get?_set_self s.tasks { task with row := none, writes := _ }

/-- What is written over a row is what the write does in one go. -/
theorem run_of_written {write : RoomWrite} {data : Store} {file written : StoredFile}
    (hfile : data.getFile vaultId fileId = some file)
    (hwritten : write.written file = some written) :
    write.run vaultId fileId data = data.saveFile (written.stamped none) := by
  have hstamp : written.stamped none = written := rfl
  rw [hstamp]
  cases write with
  | saveRoom room => simp [RoomWrite.written] at hwritten
  | saveRow activeUntil =>
    obtain rfl : { file with activeUntil } = written := by simpa [RoomWrite.written] using hwritten
    simp only [RoomWrite.run, setActiveUntil, hfile]
  | clearRow =>
    by_cases hlease : file.activeUntil.isSome
    · obtain rfl : { file with activeUntil := none } = written := by
        simpa [RoomWrite.written, hlease] using hwritten
      simp only [RoomWrite.run, clearActiveUntil, hfile, hlease, if_true]
    · simp [RoomWrite.written, hlease] at hwritten

/-- Where there is nothing to write over, nothing is written. -/
theorem run_of_not_written {write : RoomWrite} {data : Store}
    (h : ∀ file ∈ data.getFile vaultId fileId, write.written file = none) :
    write.run vaultId fileId data = data := by
  cases hfile : data.getFile vaultId fileId with
  | none => cases write <;> simp [RoomWrite.run, setActiveUntil, clearActiveUntil, hfile]
  | some file =>
    have hwritten := h file hfile
    cases write with
    | saveRoom room => rfl
    | saveRow activeUntil => simp [RoomWrite.written] at hwritten
    | clearRow =>
      have hlease : file.activeUntil.isSome = false := by simpa [RoomWrite.written] using hwritten
      simp [RoomWrite.run, clearActiveUntil, hfile, hlease]

/-- A write that nothing interrupts is made, and the call goes on with the others. -/
theorem store_nexts_write (write : RoomWrite) (rest : List RoomWrite) (s : RowStore)
    (h : s.tasks.get? (vaultId, fileId) = some { vaultId, fileId, writes := write :: rest }) :
    ∃ n, let t := Run.final (rowStep P) s (List.replicate n (.next vaultId fileId none))
      t.data = write.run vaultId fileId s.data ∧
      t.tasks.get? (vaultId, fileId) = remaining vaultId fileId rest := by
  by_cases hroom : ∃ room, write = .saveRoom room
  · obtain ⟨room, rfl⟩ := hroom
    refine ⟨1, ?_⟩
    simp only [List.replicate_one, Run.final_cons, Run.final_nil, rowStep, RowStore.next, h]
    exact ⟨RowStore.data_proceed, get?_tasks_proceed _ _ rest⟩
  have hnext : s.next vaultId fileId none = s.read { vaultId, fileId, writes := write :: rest }
      write rest := by
    cases write with
    | saveRoom room => exact absurd ⟨room, rfl⟩ hroom
    | saveRow | clearRow => simp only [RowStore.next, h]
  by_cases hwrites : ∀ file ∈ s.data.getFile vaultId fileId, write.written file = none
  · -- one call finds that there is nothing to write
    have hproceed : s.next vaultId fileId none
        = s.proceed { vaultId, fileId, writes := write :: rest } rest := by
      rw [hnext, RowStore.read]
      split
      · rfl
      · next file hfile =>
        rw [hwrites file hfile]
        rfl
    refine ⟨1, ?_⟩
    simp only [List.replicate_one, Run.final_cons, Run.final_nil, rowStep, hproceed]
    exact ⟨RowStore.data_proceed.trans (run_of_not_written hwrites).symm,
      get?_tasks_proceed s { vaultId, fileId, writes := write :: rest } rest⟩
  · -- one call reads the row, the next one writes it back
    push Not at hwrites
    obtain ⟨file, hfile, hsome⟩ := hwrites
    obtain ⟨written, hwritten⟩ := Option.ne_none_iff_exists'.mp hsome
    refine ⟨2, ?_⟩
    let task : Bookkeeping := { vaultId, fileId, row := some file, writes := write :: rest }
    have hread : s.next vaultId fileId none = { s with tasks := s.tasks.set task } := by
      rw [hnext, RowStore.read, Option.mem_def.mp hfile]
      simp only [hwritten, Option.isSome_some, if_true, task]
    have htask : (s.tasks.set task).get? (vaultId, fileId) = some task :=
      Table.get?_set_self s.tasks task
    have hsave : ({ s with tasks := s.tasks.set task } : RowStore).next vaultId fileId none
        = ({ s with tasks := s.tasks.set task, data := s.data.saveFile (written.stamped none) } :
            RowStore).proceed task rest := by
      cases write with
      | saveRoom room => exact absurd ⟨room, rfl⟩ hroom
      | saveRow | clearRow =>
        simp only [RowStore.next, htask, task, RowStore.save, hwritten]
    simp only [List.replicate_succ, List.replicate_zero, Run.final_cons, Run.final_nil, rowStep,
      hread, hsave]
    exact ⟨RowStore.data_proceed.trans (run_of_written hfile hwritten).symm,
      get?_tasks_proceed _ task rest⟩

/-- A call that nothing interrupts makes its writes one after the other. -/
theorem store_nexts (write : RoomWrite) (rest : List RoomWrite) (s : RowStore)
    (h : s.tasks.get? (vaultId, fileId) = some { vaultId, fileId, writes := write :: rest }) :
    ∃ n, (Run.final (rowStep P) s (List.replicate n (.next vaultId fileId none))).data
      = (write :: rest).foldl (RoomWrite.run vaultId fileId) s.data := by
  induction rest generalizing write s with
  | nil =>
    obtain ⟨n, hdata, -⟩ := store_nexts_write (P := P) write [] s h
    exact ⟨n, hdata⟩
  | cons next rest ih =>
    obtain ⟨n, hdata, htask⟩ := store_nexts_write (P := P) write (next :: rest) s h
    obtain ⟨m, hm⟩ := ih next _ htask
    refine ⟨n + m, ?_⟩
    rw [← List.replicate_append_replicate, Run.final_append, hm, hdata, List.foldl_cons]
    rfl

theorem writes_ne_nil (old : StoredLease) (call : RoomCall) : call.writes old ≠ [] := by
  cases call <;> simp [RoomCall.writes, RoomCall.saveRuntime]

/-- **Without interruption** a call that gets the lock and passes its checks leaves the store
as its writes do, each read and written back at once. -/
theorem store_final_calls (call : RoomCall) (s : RowStore)
    (hfree : s.tasks.get? (vaultId, fileId) = none)
    (hpasses : call.passes (s.persisted (vaultId, fileId)) (s.data.getFile vaultId fileId) = true) :
    ∃ n, (Run.final (rowStep P) s
        (.start vaultId fileId call :: List.replicate n (.next vaultId fileId none))).data
      = (call.writes (s.persisted (vaultId, fileId))).foldl (RoomWrite.run vaultId fileId)
        s.data := by
  obtain ⟨write, rest, hwrites⟩ :=
    List.exists_cons_of_ne_nil (writes_ne_nil (s.persisted (vaultId, fileId)) call)
  have hdata : (s.start vaultId fileId call).data = s.data := by
    simp only [RowStore.start, hfree, hpasses, if_true]
  have htask : (s.start vaultId fileId call).tasks.get? (vaultId, fileId)
      = some { vaultId, fileId, writes := write :: rest } := by
    simp only [RowStore.start, hfree, hpasses, if_true, hwrites]
    exact Table.get?_set_self s.tasks { vaultId, fileId, writes := write :: rest }
  obtain ⟨n, hn⟩ := store_nexts (P := P) write rest _ htask
  refine ⟨n, ?_⟩
  rw [Run.final_cons, hwrites, ← hdata, ← hn]
  rfl

end

/-! ### The calls of the manager

What the calls of `Room.Manager`, which are atomic there, do to the room and the data store. -/

/-- The activity and the lease of a room. -/
def PersistedYjsRoom.lease {D : Type} (room : PersistedYjsRoom D) : StoredLease :=
  { active := room.active, leaseUntil := room.leaseUntil }

section

variable {D : Type} [SemilatticeSup D] [OrderBot D] (cfg : RoomConfig D) (r : Room D)

/-- The call leads from one state of its room to the other: it gets as far as its writes, and
they save the room and leave the store as they do one after the other. -/
structure RoomCall.Leads (call : RoomCall) (r t : Room D) : Prop where
  passes : call.passes r.runtime.persisted.lease (r.data.getFile cfg.vaultId cfg.fileId) = true
  room : t.runtime.persisted.lease = call.room r.runtime.persisted.lease
  saved : t.roomStore.room = some t.runtime.persisted
  data : t.data = (call.writes r.runtime.persisted.lease).foldl
    (RoomWrite.run cfg.vaultId cfg.fileId) r.data

theorem leads_promote (now : Time) (clientID : ℕ) (deviceId userId : String) (connection : ℕ)
    {message : RoomMessage D}
    (h : (r.promote cfg now clientID deviceId userId connection).result = .ok message) :
    (RoomCall.promote (now + cfg.options.leaseMs) r.activates).Leads cfg r
      (r.promote cfg now clientID deviceId userId connection).room := by
  -- whatever came before, the join leaves the row and the room with the new lease
  have hjoin : ∀ (t : Room D) (file : StoredFile), t.runtime.persisted.active = true →
      (t.join cfg now file deviceId userId connection).room.data
          = setActiveUntil cfg.vaultId cfg.fileId (some (now + cfg.options.leaseMs)) t.data ∧
        (t.join cfg now file deviceId userId connection).room.runtime.persisted.lease
          = { active := true, leaseUntil := some (now + cfg.options.leaseMs) } ∧
        (t.join cfg now file deviceId userId connection).room.roomStore.room
          = some (t.join cfg now file deviceId userId connection).room.runtime.persisted := by
    intro t file ht
    have hlease : (t.extendLease cfg now deviceId).data
        = setActiveUntil cfg.vaultId cfg.fileId (some (now + cfg.options.leaseMs)) t.data := by
      simp [Room.extendLease, Room.saveRuntime, ht]
    have hroom : (t.extendLease cfg now deviceId).runtime.persisted.lease
        = { active := true, leaseUntil := some (now + cfg.options.leaseMs) } := by
      simp [Room.extendLease, Room.saveRuntime, PersistedYjsRoom.lease, ht]
    rcases t.join_cases with ⟨e, hjoined⟩ | ⟨role, joined, rfl, hjoined⟩ <;>
      rw [hjoined, ← hlease, ← hroom] <;> exact ⟨rfl, rfl, rfl⟩
  unfold Room.promote at h ⊢
  split at h
  · simp at h
  split at h
  · simp at h
  next file hfile =>
  split at h
  · simp [fail] at h
  next hencoding =>
  obtain ⟨hrow, hlive⟩ := of_requiredLiveFile hfile
  have hencoding' : file.contentEncoding.isNone = true := by simpa using hencoding
  have hactive : r.activates = false → r.runtime.persisted.active = true := by
    intro hactivates
    have hnot : (!r.runtime.persisted.active) = false := (Bool.or_eq_false_iff.mp hactivates).1
    simpa using hnot
  have hpasses : (RoomCall.promote (now + cfg.options.leaseMs) r.activates).passes
      r.runtime.persisted.lease (r.data.getFile cfg.vaultId cfg.fileId) = true := by
    rw [hrow]
    -- an activation writes the row once before the join does
    cases hactivates : r.activates with
    | true => simp [RoomCall.passes, hlive, hencoding']
    | false =>
      simp [RoomCall.passes, hlive, hencoding', PersistedYjsRoom.lease, hactive hactivates]
  simp only [hencoding, if_false, Bool.false_eq_true]
  cases hactivates : r.activates with
  | true =>
    rw [hactivates] at hpasses
    obtain ⟨hdata, hroom, hsaved⟩ := hjoin (r.activate cfg now clientID file deviceId) file rfl
    refine ⟨hpasses, hroom, hsaved, ?_⟩
    rw [if_pos rfl, hdata]
    simp [RoomCall.writes, RoomCall.saveRuntime, RoomCall.room, StoredLease.activeUntil,
      RoomWrite.run, Room.activate, Room.saveRuntime]
  | false =>
    rw [hactivates] at hpasses
    obtain ⟨hdata, hroom, hsaved⟩ := hjoin r file (hactive hactivates)
    refine ⟨hpasses, hroom, hsaved, ?_⟩
    rw [if_neg Bool.false_ne_true, hdata]
    simp [RoomCall.writes, RoomCall.saveRuntime, RoomCall.room, StoredLease.activeUntil,
      RoomWrite.run]

theorem leads_acceptUpdate (busy : RoomSink → Bool) (now : Time) (participant : Participant)
    (userId : String) (updateId : ℕ) (update : D) (hactive : r.runtime.persisted.active = true) :
    (RoomCall.handleUpdate (now + cfg.options.leaseMs)).Leads cfg r
      (r.acceptUpdate cfg busy now participant userId updateId update).room := by
  unfold Room.acceptUpdate
  dsimp only
  split <;> exact ⟨hactive, rfl, rfl, rfl⟩

theorem leads_heartbeat (now : Time) (deviceId : String) (roomEpoch : ℕ)
    (hstale : r.rejectIfStale roomEpoch deviceId = none) {participant : Participant}
    (hparticipant : r.requireParticipant deviceId = .ok participant) :
    (RoomCall.heartbeat (now + cfg.options.leaseMs)).Leads cfg r
      (r.heartbeat cfg now deviceId roomEpoch).room := by
  have hactive : r.runtime.persisted.active = true := by
    by_contra h
    simp [Room.rejectIfStale, h] at hstale
  have hroom : (r.heartbeat cfg now deviceId roomEpoch).room
      = (r.withPersisted { r.runtime.persisted with
          leaseUntil := some (now + cfg.options.leaseMs) }).saveRuntime cfg := by
    simp only [Room.heartbeat, hstale, hparticipant]
  rw [hroom]
  exact ⟨hactive, rfl, rfl, rfl⟩

theorem leads_compact (now : Time) (throughSeq : Option ℕ) :
    RoomCall.compact.Leads cfg r (r.compact cfg now throughSeq).room :=
  ⟨rfl, rfl, rfl, rfl⟩

theorem leads_replaceText (busy : RoomSink → Bool) (now : Time) (clientID : ℕ)
    (deviceId userId text : String) :
    RoomCall.restoreHistoryVersion.Leads cfg r
      (r.replaceText cfg busy now clientID deviceId userId text).1 :=
  ⟨rfl, rfl, rfl, rfl⟩

theorem leads_finishDemote (busy : RoomSink → Bool) (now : Time) (reason : RoomClosedReason)
    (hash : String) (hactive : r.runtime.persisted.active = true) :
    RoomCall.demoteLocked.Leads cfg r (r.finishDemote cfg busy now reason hash).1 :=
  ⟨hactive, rfl, rfl, rfl⟩

theorem leads_closeWithoutFlush (busy : RoomSink → Bool) (reason : RoomClosedReason)
    (hactive : r.runtime.persisted.active = true) :
    RoomCall.closeWithoutFlush.Leads cfg r (r.closeWithoutFlush cfg busy reason).room :=
  ⟨hactive, rfl, rfl, rfl⟩

end

end ObsidianSync
