import ObsidianSync.Client.ForcePull
import ObsidianSync.Client.Plugin

/-!
# Path clocks of a client

The index keeps the path clock of each file, and the engine a counter for the clocks of its own
renames.  The counter follows the clocks that ops carry.  Clocks also come with the answers to
ops and in the manifest, and those go to the index without being counted.

## Main definitions

* `Covered` — a clock that the next rename of the device wins over.
* `LocalIndex.pathClock` — the clock of a file in the index.
* `Learns` — a step that adds some clocks to those of the index, and does not lower the counter.

## Main results

* `pathClockWins_next_iff` — the next clock wins over the covered ones only.
* `lamport_applyOp`, `lamport_handleMessage`, … — the counter after each function of the engine.
* `learns_applyOp`, `learns_applyManifestEntry` — where an index gets its clocks from.
-/

namespace ObsidianSync

open Engine

/-! ### Clocks -/

/-- A clock the counter of a device is not behind of: the next one the device makes wins. -/
def Covered (deviceId : String) (lamport : ℕ) (clock : PathClock) : Prop :=
  clock.lamport < nextLamport lamport ∨
    clock.lamport = nextLamport lamport ∧ utf16Lt clock.deviceId deviceId = true

instance (deviceId : String) (lamport : ℕ) (clock : PathClock) :
    Decidable (Covered deviceId lamport clock) :=
  inferInstanceAs (Decidable (_ ∨ _))

theorem Covered.mono {deviceId : String} {lamport lamport' : ℕ} {clock : PathClock}
    (h : Covered deviceId lamport clock) (hle : lamport ≤ lamport') :
    Covered deviceId lamport' clock := by
  have hnext : nextLamport lamport ≤ nextLamport lamport' := increment_mono hle
  rcases h with h | ⟨h, hdevice⟩
  · exact Or.inl (h.trans_le hnext)
  · rcases Nat.eq_or_lt_of_le hnext with heq | hlt
    · exact Or.inr ⟨h.trans heq, hdevice⟩
    · exact Or.inl (h.trans_lt hlt)

/-- The clock of the rename just made is covered while the counter counts up. -/
theorem covered_own_iff {deviceId : String} {lamport : ℕ} :
    Covered deviceId lamport { lamport, deviceId } ↔ CountsUp lamport := by
  simp [Covered, CountsUp, nextLamport, utf16Lt_self]

/-- The clock of the next rename wins over the covered ones. -/
theorem pathClockWins_next_iff {deviceId : String} {lamport : ℕ} {clock : PathClock} :
    pathClockWins { lamport := nextLamport lamport, deviceId } clock = true ↔
      Covered deviceId lamport clock := by
  rw [pathClockWins_iff, Covered]

/-- The clock of a file in the index. -/
def LocalIndex.pathClock (index : LocalIndex) (fileId : String) : Option PathClock :=
  (index.byFileId fileId).bind FileIndexEntry.pathClock

theorem LocalIndex.pathClock_upsertFile (index : LocalIndex) (entry : FileIndexEntry)
    (fileId : String) :
    (index.upsertFile entry).pathClock fileId
      = if entry.fileId = fileId then entry.pathClock else index.pathClock fileId := by
  rw [pathClock, byFileId_upsertFile]
  split <;> rfl

@[simp] theorem LocalIndex.pathClock_markDeleted (index : LocalIndex) (fileId fileId' : String) :
    (index.markDeleted fileId).pathClock fileId' = index.pathClock fileId' := by
  rw [pathClock, pathClock, byFileId_markDeleted]
  split
  · cases index.byFileId fileId' <;> rfl
  · rfl

theorem LocalIndex.pathClock_congr {index index' : LocalIndex} (h : index'.files = index.files)
    (fileId : String) : index'.pathClock fileId = index.pathClock fileId := by
  rw [pathClock, byFileId, h]
  rfl

/-! ### The counter of an engine -/

section

variable (P : Platform) (cfg : ClientConfig) (now : Time)

@[simp] theorem lamport_flushOutbox (e : Engine) : (flushOutbox now e).lamport = e.lamport := by
  unfold flushOutbox
  split
  · rfl
  split
  · rfl
  · split <;> rfl

@[simp] theorem lamport_enqueueLocalChange (uuid : Uuid) (draft : FileOpDraft) (e : Engine) :
    (enqueueLocalChange now uuid draft e).lamport = e.lamport :=
  lamport_flushOutbox now _

@[simp] theorem lamport_syncPath (opId fileId : Uuid) (path : String) (e : Engine) :
    (e.syncPath P cfg now opId fileId path).lamport = e.lamport := by
  unfold Engine.syncPath
  split
  · rfl
  dsimp only
  split
  · rfl
  · exact lamport_enqueueLocalChange now opId _ e

/-- A delete takes a clock too. -/
theorem lamport_handleDelete_le (opId : Uuid) (path : String) (e : Engine) :
    e.lamport ≤ (e.handleDelete P cfg now opId path).lamport := by
  unfold Engine.handleDelete
  split
  · exact le_rfl
  split
  · exact le_rfl
  dsimp only
  split
  · exact le_rfl
  · rw [lamport_enqueueLocalChange]
    exact le_increment e.lamport

@[simp] theorem lamport_promote (fileId : String) (e : Engine) :
    (promote cfg fileId e).lamport = e.lamport := by
  unfold promote
  split <;> rfl

@[simp] theorem lamport_handleAck (opId : String) (vaultSeq : ℕ) (conflictId : Option String)
    (e : Engine) : (handleAck now opId vaultSeq conflictId e).lamport = e.lamport := by
  have hwaiter : ∀ (result : ForcePushOpResult) (e : Engine),
      (if e.forceWaiters.contains opId then settleWaiter opId result e else e).lamport
        = e.lamport := by
    intro result e
    split <;> rfl
  unfold handleAck
  dsimp only
  rw [lamport_flushOutbox, hwaiter]
  rfl

@[simp] theorem lamport_handleReject (opId : Option String) (code : ErrorCode) (message : String)
    (e : Engine) : (handleReject cfg now opId code message e).lamport = e.lamport := by
  unfold handleReject
  split
  · rfl
  dsimp only
  split
  · rfl
  rw [lamport_flushOutbox]
  split
  · rfl
  split
  · split
    · rfl
    · exact lamport_promote cfg _ e
  · rfl

@[simp] theorem lamport_goOn (items : List AppliedOp) (more : Bool) (e : Engine) :
    (goOn now items more e).1.lamport = e.lamport := by
  unfold goOn
  split
  · unfold finishOps
    split
    · rfl
    split
    · exact lamport_flushOutbox now _
    · rfl
  · rfl
  · rfl

@[simp] theorem lamport_handleMessage (message : ServerMessage) (e : Engine) :
    (Engine.handleMessage cfg now message e).1.lamport = e.lamport := by
  cases message with
  | welcome currentSeq =>
    unfold Engine.handleMessage
    dsimp only
    split
    · rfl
    · exact lamport_flushOutbox now _
  | ops ops more => exact lamport_goOn now _ more e
  | opAck opId vaultSeq clocks conflictId => exact lamport_handleAck now opId vaultSeq conflictId e
  | reject opId code message => exact lamport_handleReject cfg now opId code message e
  | conflict | error => rfl
  | conflictState conflictId status =>
    unfold Engine.handleMessage
    dsimp only
    split <;> rfl

@[simp] theorem lamport_handleTransportState (state : TransportState) (e : Engine) :
    (handleTransportState cfg state e).lamport = e.lamport := by
  unfold handleTransportState
  dsimp only
  split
  · rfl
  · cases state <;> rfl

@[simp] theorem lamport_endForced (op : FileOp) (result : ForcePushOpResult) (e : Engine) :
    (endForced P now op result e).lamport = e.lamport := by
  unfold endForced
  dsimp only [persistOutbox]
  split
  · unfold applyForcedToIndex
    split
    · rfl
    · dsimp only
      split <;> rfl
  split
  · rfl
  · split <;> rfl

@[simp] theorem lamport_pushForced (uuid : Uuid) (draft : FileOpDraft) (e : Engine) :
    (pushForced P now uuid draft e).2.lamport = e.lamport := by
  unfold pushForced
  dsimp only
  split
  · exact lamport_endForced P now _ _ _
  · rfl

@[simp] theorem lamport_applyManifestEntry (source : ContentSource) (entry : ManifestEntry)
    (e : Engine) : (applyManifestEntry P source now entry e).2.lamport = e.lamport := by
  unfold applyManifestEntry
  split
  · rfl
  split
  · rfl
  split
  · rfl
  split <;> rfl

/-- An op that is applied raises the counter to the clocks it carries. -/
@[simp] theorem lamport_applyOp (op : FileOp) (contentVV : Option VersionVector)
    (pathClock : Option PathClock) (e : Engine) :
    (e.applyOp P cfg now op contentVV pathClock).2.lamport = observe op e.lamport := by
  have hcontent : ∀ target hash applied (e : Engine),
      (beginContent P cfg [] op target hash applied e).engine.lamport = e.lamport := by
    intro target hash applied e
    unfold beginContent
    split
    · split <;> rfl
    split
    · rfl
    split
    · rfl
    split <;> rfl
  have hbegun : (beginApply P cfg [] now op contentVV pathClock e).engine.lamport
      = observe op e.lamport := by
    unfold beginApply
    dsimp only
    split
    · split
      · rfl
      · split <;> rfl
    split
    · split
      · split
        · split <;> rfl
        · rfl
      · rfl
    split
    · split
      · rfl
      split
      · rfl
      · exact hcontent _ _ _ _
    · rfl
  rw [applyOp_eq_begun, ← hbegun]
  unfold Begun.finish
  dsimp only
  split <;> rfl

theorem lamport_resumeBatch (batch : Batch) (e : Engine) :
    (resumeBatch P cfg now batch e).1.lamport = observe batch.current.op e.lamport := by
  have happlied := lamport_applyOp P cfg now batch.current.op
    batch.current.resultingClocks.contentVV batch.current.resultingClocks.pathClock e
  unfold resumeBatch
  split
  · next e' heq =>
    rw [heq] at happlied
    exact happlied
  · next e' heq =>
    rw [heq] at happlied
    exact (lamport_goOn now batch.rest batch.more _).trans happlied

theorem le_observe (op : FileOp) (lamport : ℕ) : lamport ≤ observe op lamport := by
  unfold observe
  cases op.pathClock <;> cases op.deleteClock <;> simp

end

/-! ### What an engine learns -/

/-- The index has the clocks it had, and some of the new ones. -/
def AddsClocks (new : List (String × PathClock)) (index index' : LocalIndex) : Prop :=
  ∀ fileId clock, index'.pathClock fileId = some clock →
    index.pathClock fileId = some clock ∨ (fileId, clock) ∈ new

/-- An entry that keeps the clock of its file, or has a new one. -/
def KeepsClock (new : List (String × PathClock)) (index : LocalIndex) (entry : FileIndexEntry) :
    Prop :=
  ∀ clock, entry.pathClock = some clock →
    index.pathClock entry.fileId = some clock ∨ (entry.fileId, clock) ∈ new

namespace AddsClocks

variable {new : List (String × PathClock)} {index index' : LocalIndex}

theorem of_files (h : index'.files = index.files) : AddsClocks new index index' := by
  intro fileId clock hclock
  rw [LocalIndex.pathClock_congr h] at hclock
  exact Or.inl hclock

theorem markDeleted (new : List (String × PathClock)) (index : LocalIndex) (fileId : String) :
    AddsClocks new index (index.markDeleted fileId) := by
  intro fileId' clock hclock
  rw [LocalIndex.pathClock_markDeleted] at hclock
  exact Or.inl hclock

theorem upsertFile {entry : FileIndexEntry} (hfiles : index'.files = index.files)
    (hentry : KeepsClock new index entry) : AddsClocks new index (index'.upsertFile entry) := by
  intro fileId clock hclock
  rw [LocalIndex.pathClock_upsertFile] at hclock
  split at hclock
  · next hid =>
    subst hid
    exact hentry clock hclock
  · rw [LocalIndex.pathClock_congr hfiles] at hclock
    exact Or.inl hclock

end AddsClocks

/-- A step after which the index has the clocks it had and some of the new ones, and the counter
is not lower. -/
structure Learns (new : List (String × PathClock)) (e e' : Engine) : Prop where
  clocks : AddsClocks new e.index e'.index
  lamport : e.lamport ≤ e'.lamport

namespace Learns

variable {P : Platform} {cfg : ClientConfig} {new : List (String × PathClock)}
  {e e' e'' : Engine}

theorem refl (new : List (String × PathClock)) (e : Engine) : Learns new e e :=
  ⟨fun _ _ => Or.inl, le_rfl⟩

theorem trans (h : Learns new e e') (h' : Learns new e' e'') : Learns new e e'' where
  clocks fileId clock hclock := by
    rcases h'.clocks fileId clock hclock with hclock | hnew
    · exact h.clocks fileId clock hclock
    · exact Or.inr hnew
  lamport := h.lamport.trans h'.lamport

/-- The entries are the same. -/
theorem of_files (hfiles : e'.index.files = e.index.files) (hlamport : e.lamport ≤ e'.lamport) :
    Learns new e e' :=
  ⟨.of_files hfiles, hlamport⟩

theorem handleMessage (now : Time) (message : ServerMessage) :
    Learns new e (Engine.handleMessage cfg now message e).1 := by
  refine of_files ?_ (lamport_handleMessage cfg now message e).ge
  cases message with
  | welcome currentSeq =>
    unfold Engine.handleMessage
    dsimp only
    split
    · rfl
    · exact (sameEntries_finishHandshake now _).files
  | ops ops more => exact (sameEntries_goOn now _ more e).files
  | opAck opId vaultSeq clocks conflictId =>
    exact (index_handleAck now opId vaultSeq conflictId e).1
  | reject opId code message => exact (sameEntries_handleReject cfg now opId code message e).files
  | conflict conflict =>
    unfold Engine.handleMessage LocalIndex.addConflict
    dsimp only
    split <;> rfl
  | conflictState conflictId status =>
    unfold Engine.handleMessage
    dsimp only
    split <;> rfl
  | error => rfl

/-- The entry of a forced op keeps its clock. -/
theorem endForced (now : Time) (op : FileOp) (result : ForcePushOpResult) :
    Learns new e (endForced P now op result e) := by
  refine ⟨?_, (lamport_endForced P now op result e).ge⟩
  unfold Engine.endForced
  dsimp only [persistOutbox]
  split
  · unfold applyForcedToIndex
    split
    · exact .markDeleted new e.index op.fileId
    · dsimp only
      split
      · exact .of_files rfl
      · exact .upsertFile rfl fun clock => Or.inl
  split
  · exact .of_files rfl
  · split <;> exact .of_files rfl

theorem pushForced (now : Time) (uuid : Uuid) (draft : FileOpDraft) :
    Learns new e (pushForced P now uuid draft e).2 := by
  unfold Engine.pushForced
  dsimp only
  have hqueued : Learns new e
      (persistOutbox { e with outbox := (e.outbox.enqueue now uuid draft).2 }) :=
    of_files rfl le_rfl
  split
  · exact hqueued.trans (endForced now _ _)
  · exact of_files rfl le_rfl

end Learns

/-- What applying an op does to the index once the vault is written. -/
def IndexChange.Keeps (new : List (String × PathClock)) (index : LocalIndex) :
    IndexChange → Prop
  | .markDeleted _ => True
  | .upsert _ entry => KeepsClock new index entry

theorem IndexChange.Keeps.addsClocks {new : List (String × PathClock)} {index : LocalIndex}
    {change : IndexChange} (h : change.Keeps new index) :
    AddsClocks new index (change.apply index) := by
  cases change with
  | markDeleted fileId => exact .markDeleted new index fileId
  | upsert downloaded entry =>
    refine .upsertFile ?_ h
    cases downloaded <;> rfl

section

variable {P : Platform} {cfg : ClientConfig} {new : List (String × PathClock)} {e : Engine}

/-- What writing an op to the vault leaves for the index. -/
structure BeginsWith (new : List (String × PathClock)) (index : LocalIndex) (begun : Begun) :
    Prop where
  index_eq : begun.engine.index = index
  left : ∀ change, begun.left = some change → change.Keeps new index

theorem beginsWith_beginContent (sessions : List String) (op : FileOp) (target hash : String)
    {applied : FileIndexEntry} (happlied : KeepsClock new e.index applied) :
    BeginsWith new e.index (beginContent P cfg sessions op target hash applied e) := by
  have hleft : ∀ downloaded change, some (IndexChange.upsert downloaded applied) = some change →
      change.Keeps new e.index := by
    rintro downloaded _ ⟨⟩
    exact happlied
  have hnone : ∀ change, none = some change → IndexChange.Keeps new e.index change := by simp
  unfold beginContent
  split
  · split
    · exact ⟨rfl, hleft none⟩
    · exact ⟨rfl, hnone⟩
  split
  · exact ⟨rfl, hleft none⟩
  split
  · exact ⟨rfl, hleft none⟩
  split
  · exact ⟨rfl, hnone⟩
  · exact ⟨rfl, hleft _⟩

/-- An op that is applied leaves its file with the clock it had, the one the server answered, or
the one the op carries. -/
theorem beginsWith_beginApply (sessions : List String) (now : Time) (op : FileOp)
    (contentVV : Option VersionVector) {pathClock : Option PathClock}
    (hop : ∀ clock ∈ op.pathClock, (op.fileId, clock) ∈ new)
    (hanswer : ∀ clock ∈ pathClock, (op.fileId, clock) ∈ new) :
    BeginsWith new e.index (beginApply P cfg sessions now op contentVV pathClock e) := by
  have hnone : ∀ change, none = some change → IndexChange.Keeps new e.index change := by simp
  have hdeleted : ∀ change, some (IndexChange.markDeleted op.fileId) = some change →
      change.Keeps new e.index := by
    rintro _ ⟨⟩
    trivial
  unfold beginApply
  dsimp only
  split
  · -- a delete
    split
    · exact ⟨rfl, hdeleted⟩
    · split <;> exact ⟨rfl, hdeleted⟩
  split
  · -- a rename
    split
    · next entry _ hentry =>
      have hid : entry.fileId = op.fileId := Table.key_of_get? hentry
      have hmoved : ∀ change, some (IndexChange.upsert none { entry with
          path := op.newPath.getD "", pathClock := pathClock.or op.pathClock }) = some change →
          change.Keeps new e.index := by
        rintro _ ⟨⟩ clock hclock
        rw [hid]
        rcases Option.or_eq_some_iff.mp hclock with hclock | ⟨-, hclock⟩
        · exact Or.inr (hanswer clock hclock)
        · exact Or.inr (hop clock hclock)
      split
      · split
        · exact ⟨rfl, hnone⟩
        · exact ⟨rfl, hmoved⟩
      · exact ⟨rfl, hmoved⟩
    · exact ⟨rfl, hnone⟩
  split
  · split
    · exact ⟨rfl, hnone⟩
    split
    · exact ⟨rfl, hnone⟩
    -- content
    refine beginsWith_beginContent (e := { e with lamport := observe op e.lamport })
      sessions op _ _ ?_
    intro clock hclock
    rcases Option.or_eq_some_iff.mp hclock with hclock | ⟨-, hclock⟩
    · exact Or.inr (hanswer clock hclock)
    · exact Or.inl hclock
  · exact ⟨rfl, hnone⟩

theorem learns_applyOp (now : Time) (op : FileOp) (contentVV : Option VersionVector)
    {pathClock : Option PathClock} (hop : ∀ clock ∈ op.pathClock, (op.fileId, clock) ∈ new)
    (hanswer : ∀ clock ∈ pathClock, (op.fileId, clock) ∈ new) :
    Learns new e (e.applyOp P cfg now op contentVV pathClock).2 := by
  refine ⟨?_, (le_observe op e.lamport).trans
    (lamport_applyOp P cfg now op contentVV pathClock e).ge⟩
  have hbegun : BeginsWith new e.index (beginApply P cfg [] now op contentVV pathClock e) :=
    beginsWith_beginApply [] now op contentVV hop hanswer
  obtain ⟨hindex, hleft⟩ := hbegun
  rw [applyOp_eq_begun]
  unfold Begun.finish
  dsimp only
  split
  · exact .of_files (by rw [hindex])
  · next change hchange =>
    dsimp only
    rw [hindex]
    exact (hleft change hchange).addsClocks

/-- The clocks a batch shows with its op. -/
def Engine.Batch.shown (batch : Batch) : List (String × PathClock) :=
  (batch.current.op.pathClock.toList ++
    batch.current.resultingClocks.pathClock.toList).map fun clock =>
      (batch.current.op.fileId, clock)

theorem learns_resumeBatch (now : Time) (batch : Batch) :
    Learns batch.shown e (resumeBatch P cfg now batch e).1 := by
  have happlied : Learns batch.shown e (e.applyOp P cfg now batch.current.op
      batch.current.resultingClocks.contentVV batch.current.resultingClocks.pathClock).2 := by
    apply learns_applyOp
    · intro clock hclock
      simp [Batch.shown, Option.mem_def.mp hclock]
    · intro clock hclock
      simp [Batch.shown, Option.mem_def.mp hclock]
  unfold resumeBatch
  split
  · next e' heq =>
    rw [heq] at happlied
    exact happlied
  · next e' heq =>
    rw [heq] at happlied
    have hlamport := lamport_goOn now batch.rest batch.more
      { e' with index := e'.index.setAppliedSeq batch.current.vaultSeq }
    have hentries := sameEntries_goOn now batch.rest batch.more
      { e' with index := e'.index.setAppliedSeq batch.current.vaultSeq }
    exact happlied.trans (.of_files hentries.files hlamport.ge)

theorem learns_applyManifestEntry (source : ContentSource) (now : Time) (entry : ManifestEntry) :
    Learns [(entry.fileId, entry.pathClock)] e (applyManifestEntry P source now entry e).2 := by
  have hfetch : ∀ stored index, fetchEntry source entry e = some (stored, index) →
      index.files = e.index.files := by
    intro stored index h
    unfold fetchEntry at h
    split at h
    · obtain ⟨bytes, -, heq⟩ := Option.map_eq_some_iff.mp h
      rw [← (Prod.mk.inj heq).2]
    · obtain ⟨bytes, -, heq⟩ := Option.map_eq_some_iff.mp h
      rw [← (Prod.mk.inj heq).2]
      rfl
  refine ⟨?_, (lamport_applyManifestEntry P now source entry e).ge⟩
  unfold applyManifestEntry
  split
  · exact .of_files rfl
  split
  · exact .of_files rfl
  next stored index hfetched =>
  have hfiles := hfetch stored index hfetched
  split
  · exact .of_files hfiles
  split
  · exact .of_files hfiles
  · refine .upsertFile hfiles ?_
    intro clock hclock
    right
    obtain rfl : entry.pathClock = clock := Option.some.inj hclock
    exact List.mem_singleton.mpr rfl

end

@[simp] theorem lamport_withWatcher {D : Type} (p : Plugin D) (w : VaultWatcher) :
    (p.withWatcher w).watcher.engine.lamport = w.engine.lamport := rfl

theorem Learns.withWatcher {new : List (String × PathClock)} {D : Type} {p : Plugin D}
    {w : VaultWatcher} (h : Learns new p.watcher.engine w.engine) :
    Learns new p.watcher.engine (p.withWatcher w).watcher.engine :=
  ⟨h.clocks, h.lamport⟩

theorem Learns.withEngine {new : List (String × PathClock)} {D : Type} {p : Plugin D} {e : Engine}
    (h : Learns new p.watcher.engine e) :
    Learns new p.watcher.engine (p.withEngine e).watcher.engine :=
  ⟨h.clocks, h.lamport⟩

theorem Learns.startForced {D : Type} (new : List (String × PathClock)) (P : Platform)
    (now : Time) (uuid : Uuid) (draft : FileOpDraft) (p : Plugin D) :
    Learns new p.watcher.engine (p.startForced P now uuid draft).watcher.engine :=
  .withEngine (.pushForced now uuid draft)

theorem lamport_resume {D : Type} (P : Platform) (cfg : ClientConfig) (now : Time) (place : ℕ)
    (p : Plugin D) : (p.resume P cfg now place).watcher.engine.lamport
      = p.batches[place]?.elim p.watcher.engine.lamport fun batch =>
          observe batch.current.op p.watcher.engine.lamport := by
  unfold Plugin.resume
  cases p.batches[place]? with
  | none => rfl
  | some batch => exact lamport_resumeBatch P cfg now batch _

end ObsidianSync
