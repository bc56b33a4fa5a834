import Mathlib.Logic.Function.Basic
import ObsidianSync.Client.Messages
import ObsidianSync.Lib.Run
import ObsidianSync.Server.System

/-!
# The vault watcher

Every change of a file in the vault raises an event, whether the user made it or the engine
wrote what another device had sent.  The watcher collects the paths that were written and
syncs them some time later; deletes and renames it hands to the engine at once.

An op is applied in two parts, since the engine waits for the disk in between: it writes to
the vault, which raises the event, and changes the index afterwards.  Events are delivered
at any time after they were raised, and the timer of the watcher runs at any time too.

## Main definitions

* `VaultWatcher`, and its `queuePath`, `flush`, `syncPath`, `handleRename`, `handleDelete`.
* `beginApply`, `IndexChange.apply` — the two parts of `applyOp`.
* `Device`, `DeviceEvent`, `deviceStep` — a device whose user does nothing.
* `NoEcho` — a step enqueues and sends nothing.
* `LeftAlone` — the watcher has nothing to do with the event.

## Main results

* `applyOp_eq_begun` — one part after the other is `applyOp`.
* `noEcho_iff_leftAlone` — **no step of any device enqueues or sends anything exactly where each
  event is one the watcher has nothing to do with.**
* `not_noEcho_remoteCreate` — a note that another device created is sent back.
-/

namespace ObsidianSync

open Engine

/-! ### The watcher -/

/-- The watcher and the engine, which also says whether the watcher is suspended. -/
structure VaultWatcher where
  engine : Engine
  /-- The ids of the files that are open in a session. -/
  sessions : List String := []
  /-- The paths that wait for the timer. -/
  queued : List String := []

namespace VaultWatcher

variable (P : Platform) (cfg : ClientConfig) (w : VaultWatcher)

/-- Whether a file is open in a session. -/
def isRealtimeActiveFile (fileId : String) : Bool := w.sessions.contains fileId

/-- Whether the file at a path is open in a session. -/
def isRealtimeActivePath (path : String) : Bool :=
  (w.engine.index.byPath path).any fun entry => w.isRealtimeActiveFile entry.fileId

/-- `queued` is a set. -/
def queuePath (path : String) : VaultWatcher :=
  if w.engine.suspended then w
  else
    match normalizePath P path with
    | .error _ => w
    | .ok canonical =>
      if cfg.ignores canonical || w.isRealtimeActivePath canonical then w
      else if w.queued.contains canonical then w
      else { w with queued := w.queued ++ [canonical] }

/-- A changed file is sent, unless it is open in a session. -/
def syncPath (now : Time) (opId fileId : Uuid) (path : String) : VaultWatcher :=
  if w.isRealtimeActivePath path then w
  else { w with engine := w.engine.syncPath P cfg now opId fileId path }

/-- `flush`, with the ids the op and the file of a path get if they are new. -/
def flush (now : Time) (fresh : String → Uuid × Uuid) : VaultWatcher :=
  if w.engine.suspended then w
  else
    w.queued.foldl
      (fun w path => w.syncPath P cfg now (fresh path).1 (fresh path).2 path)
      { w with queued := [] }

/-- Whether a session keeps a rename from the engine: one of the file the index has at the old
path, or else of the one it has at the new path. -/
def keepsRename (oldPath newPath : String) : Bool :=
  match normalizePath P oldPath, normalizePath P newPath with
  | .ok oldCanonical, .ok newCanonical =>
    match w.engine.index.byPath oldCanonical with
    | none => w.isRealtimeActivePath newCanonical
    | some entry => w.isRealtimeActiveFile entry.fileId
  | _, _ => false

/-- A rename is sent, unless it is kept. -/
def handleRename (now : Time) (opId fileId : Uuid) (oldPath newPath : String) : VaultWatcher :=
  if w.keepsRename P oldPath newPath then w
  else { w with engine := w.engine.handleRename P cfg now opId fileId oldPath newPath }

/-- Whether a session keeps a delete from the engine. -/
def keepsDelete (path : String) : Bool :=
  match normalizePath P path with
  | .error _ => false
  | .ok canonical => w.isRealtimeActivePath canonical

/-- A delete is sent, unless it is kept. -/
def handleDelete (now : Time) (opId : Uuid) (path : String) : VaultWatcher :=
  if w.keepsDelete P path then w
  else { w with engine := w.engine.handleDelete P cfg now opId path }

end VaultWatcher

/-! ### Applying an op in two parts -/

/-- What a change of a file raises. -/
inductive VaultEvent
  /-- A file was created or modified. -/
  | changed (path : String)
  | deleted (path : String)
  | renamed (oldPath newPath : String)
  deriving DecidableEq, Repr

/-- What applying an op does to the index, after the vault is written. -/
inductive IndexChange
  | markDeleted (fileId : String)
  | upsert (downloaded : Option String) (entry : FileIndexEntry)
  deriving DecidableEq

/-- The index after a change. -/
def IndexChange.apply (index : LocalIndex) : IndexChange → LocalIndex
  | .markDeleted fileId => index.markDeleted fileId
  | .upsert downloaded entry => (downloaded.elim index index.addDownloaded).upsertFile entry

/-- How far an op is applied when the vault is written. -/
structure Begun where
  engine : Engine
  raised : List VaultEvent := []
  left : Option IndexChange := none
  threw : Bool := false

/-- The part of a content op, which is known to be applied to the target. -/
def beginContent (P : Platform) (cfg : ClientConfig) (sessions : List String) (op : FileOp)
    (target hash : String) (applied : FileIndexEntry) (e : Engine) : Begun :=
  if op.contentEncoding.isNone && sessions.contains op.fileId && isTextPath target then
    -- the text goes to the session
    if op.inlineText.isSome || (cfg.fetchContentBytes hash none).isSome then
      { engine := e, left := some (.upsert none applied) }
    else { engine := e, threw := true }
  else
    match op.inlineText with
    | some inlineText =>
      { engine := { e with vault := e.vault.writeText target inlineText }
        raised := [.changed target], left := some (.upsert none applied) }
    | none =>
      if alreadyThere P cfg target hash op.contentEncoding e then
        { engine := e, left := some (.upsert none applied) }
      else
        match cfg.fetchContentBytes hash op.contentEncoding with
        | none => { engine := e, threw := true }
        | some bytes =>
          let vault :=
            if op.contentEncoding.isSome && isTextPath target then
              e.vault.writeText target (decodeText P bytes)
            else e.vault.writeBytes target bytes
          { engine := { e with vault }
            raised := [.changed target], left := some (.upsert (some hash) applied) }

/-- `applyOp` up to the end of its write to the vault. -/
def beginApply (P : Platform) (cfg : ClientConfig) (sessions : List String) (now : Time)
    (op : FileOp) (contentVV : Option VersionVector) (pathClock : Option PathClock)
    (e : Engine) : Begun :=
  let entry := e.index.byFileId op.fileId
  let e := { e with lamport := observe op e.lamport }
  if op.kind = .delete then
    -- the index forgets the file after the trash, which the watcher hears
    let left := some (.markDeleted op.fileId)
    match entry with
    | none => { engine := e, left }
    | some entry =>
      if e.vault.contains entry.path then
        { engine := { e with vault := e.vault.trash entry.path }
          raised := [.deleted entry.path], left }
      else { engine := e, left }
  else if op.kind = .rename then
    match truthy op.newPath, entry with
    | true, some entry =>
      let newPath := op.newPath.getD ""
      let moved := { entry with path := newPath, pathClock := pathClock.or op.pathClock }
      let left := some (.upsert none moved)
      -- a file that is missing moves in the index only
      if entry.path ≠ newPath && e.vault.contains entry.path then
        match e.vault.rename entry.path newPath with
        | none => { engine := e, threw := true }
        | some vault =>
          { engine := { e with vault }, raised := [.renamed entry.path newPath], left }
      else { engine := e, left }
    | _, _ => { engine := e }
  else if truthy op.contentHash then
    let hash := op.contentHash.getD ""
    let target := (op.newPath.or (entry.map FileIndexEntry.path)).getD ""
    if target = "" then { engine := e }
    else
      let decision := shouldApplyConfigPath cfg.configSync target
      -- a config file of a category that stays local
      if decision.category.isSome && !decision.applies then { engine := e }
      else
        beginContent P cfg sessions op target hash
          (appliedEntry P now op target hash contentVV
            (pathClock.or (entry.bind FileIndexEntry.pathClock))) e
  else { engine := e }

/-- The rest of `applyOp`, where nothing happened in between. -/
def Begun.finish (begun : Begun) : Bool × Engine :=
  (!begun.threw, match begun.left with
    | none => begun.engine
    | some change => { begun.engine with index := change.apply begun.engine.index })

/-- One part after the other is `applyOp`, for a client without sessions. -/
theorem applyOp_eq_begun (P : Platform) (cfg : ClientConfig) (now : Time) (op : FileOp)
    (contentVV : Option VersionVector) (pathClock : Option PathClock) (e : Engine) :
    e.applyOp P cfg now op contentVV pathClock
      = (beginApply P cfg [] now op contentVV pathClock e).finish := by
  unfold Engine.applyOp beginApply
  dsimp only
  split
  · -- a delete
    cases e.index.byFileId op.fileId with
    | none => rfl
    | some entry =>
      dsimp only
      split <;> rfl
  split
  · -- a rename
    cases truthy op.newPath with
    | false => rfl
    | true =>
      cases e.index.byFileId op.fileId with
      | none => rfl
      | some entry =>
        dsimp only
        by_cases hmoves : (decide (entry.path ≠ op.newPath.getD "") &&
            e.vault.contains entry.path) = true
        · simp only [hmoves, if_true]
          cases e.vault.rename entry.path (op.newPath.getD "") with
          | none => rfl
          | some vault => rfl
        · simp only [hmoves, Bool.false_eq_true, if_false]
          rfl
  split
  · split
    · rfl
    split
    · rfl
    · -- content
      unfold beginContent fetchAndWriteBlob
      simp only [List.contains_nil, Bool.and_false, Bool.false_and, Bool.false_eq_true, if_false]
      cases op.inlineText with
      | some inlineText => rfl
      | none =>
        dsimp only
        generalize op.contentHash.getD "" = hash
        generalize (op.newPath.or _).getD "" = target
        by_cases hthere : alreadyThere P cfg target hash op.contentEncoding
            { e with lamport := observe op e.lamport } = true
        · simp only [hthere, if_true]
          rfl
        · simp only [hthere, Bool.false_eq_true, if_false]
          cases cfg.fetchContentBytes hash op.contentEncoding with
          | none => rfl
          | some bytes => rfl
  · rfl

/-! ### Devices -/

/-- A device: its watcher, the paths a flush goes through, the events that were raised and not
delivered yet, and the ops that are applied but for the index. -/
structure Device where
  watcher : VaultWatcher
  flushing : List String := []
  raised : List VaultEvent := []
  applying : List IndexChange := []

/-- What happens on a device whose user does nothing. -/
inductive DeviceEvent
  /-- An op of another device is applied, but for the index. -/
  | apply (now : Time) (op : FileOp) (contentVV : Option VersionVector)
      (pathClock : Option PathClock)
  /-- The index is changed. -/
  | finish (place : ℕ)
  /-- A raised event is delivered. -/
  | deliver (place : ℕ) (now : Time) (opId fileId : Uuid)
  /-- The timer of the watcher runs. -/
  | flush
  /-- The flush comes to a path. -/
  | sync (place : ℕ) (now : Time) (opId fileId : Uuid)

/-- `registerVaultEvents`: what an event is to the watcher. -/
def deliver (P : Platform) (cfg : ClientConfig) (now : Time) (opId fileId : Uuid)
    (w : VaultWatcher) : VaultEvent → VaultWatcher
  | .changed path => w.queuePath P cfg path
  | .deleted path => w.handleDelete P cfg now opId path
  | .renamed oldPath newPath => w.handleRename P cfg now opId fileId oldPath newPath

/-- The device after an event. -/
def deviceStep (P : Platform) (cfg : ClientConfig) (d : Device) : DeviceEvent → Device
  | .apply now op contentVV pathClock =>
    let begun := beginApply P cfg d.watcher.sessions now op contentVV pathClock d.watcher.engine
    { d with
      watcher := { d.watcher with engine := begun.engine }
      raised := d.raised ++ begun.raised
      applying := d.applying ++ begun.left.toList }
  | .finish place =>
    match d.applying[place]? with
    | none => d
    | some change =>
      let e := d.watcher.engine
      { d with
        watcher := { d.watcher with engine := { e with index := change.apply e.index } }
        applying := d.applying.eraseIdx place }
  | .deliver place now opId fileId =>
    match d.raised[place]? with
    | none => d
    | some event =>
      { d with
        watcher := deliver P cfg now opId fileId d.watcher event
        raised := d.raised.eraseIdx place }
  | .flush =>
    if d.watcher.engine.suspended then d
    else
      { d with
        watcher := { d.watcher with queued := [] }
        flushing := d.flushing ++ d.watcher.queued }
  | .sync place now opId fileId =>
    match d.flushing[place]? with
    | none => d
    | some path =>
      { d with
        watcher := d.watcher.syncPath P cfg now opId fileId path
        flushing := d.flushing.eraseIdx place }

/-- Any number of devices, each with its own settings. -/
def devicesStep {ι : Type} [DecidableEq ι] (P : Platform) (cfg : ι → ClientConfig)
    (devices : ι → Device) (e : ι × DeviceEvent) : ι → Device :=
  Function.update devices e.1 (deviceStep P (cfg e.1) (devices e.1) e.2)

/-! ### The property -/

/-- Nothing was enqueued and nothing was sent. -/
structure SameSending (e e' : Engine) : Prop where
  outbox : e'.outbox = e.outbox
  outgoing : e'.outgoing = e.outgoing

/-- **No device enqueues or sends anything.** -/
def NoEcho {ι : Type} [DecidableEq ι] (P : Platform) (cfg : ι → ClientConfig)
    (devices : ι → Device) (e : ι × DeviceEvent) : Prop :=
  ∀ i, SameSending (devices i).watcher.engine (devicesStep P cfg devices e i).watcher.engine

/-- The file at the path has the content the index records for it. -/
def AsRecorded (P : Platform) (cfg : ClientConfig) (w : VaultWatcher) (path : String) : Prop :=
  ∃ entry ∈ w.engine.index.byPath path, ∃ hash, entry.contentHash = some hash ∧
    hashPath P cfg w.engine.vault path = some hash

/-! ### The condition -/

/-- The watcher leaves the path alone: it is ignored, open in a session, or there is no file. -/
def LeavesPath (cfg : ClientConfig) (w : VaultWatcher) (path : String) : Prop :=
  cfg.ignores path = true ∨ w.isRealtimeActivePath path = true ∨
    w.engine.vault.contains path = false

/-- The watcher leaves a rename between canonical paths alone. -/
def LeavesRename (cfg : ClientConfig) (w : VaultWatcher) (oldPath newPath : String) : Prop :=
  cfg.ignores newPath = true ∨
    match w.engine.index.byPath oldPath with
    | some entry => w.isRealtimeActiveFile entry.fileId = true
    | none => LeavesPath cfg w newPath

/-- The watcher leaves the event alone.  A write only makes it queue the path. -/
def LeavesEvent (P : Platform) (cfg : ClientConfig) (w : VaultWatcher) : VaultEvent → Prop
  | .changed _ => True
  | .deleted path =>
    w.engine.suspended = true ∨ ∀ canonical, normalizePath P path = .ok canonical →
      w.engine.index.byPath canonical = none ∨ w.isRealtimeActivePath canonical = true
  | .renamed oldPath newPath =>
    w.engine.suspended = true ∨ ∀ oldCanonical newCanonical,
      normalizePath P oldPath = .ok oldCanonical → normalizePath P newPath = .ok newCanonical →
      LeavesRename cfg w oldCanonical newCanonical

/-- The watcher has nothing to do with what happens: a flush comes only to paths it leaves
alone, and only such deletes and renames are delivered. -/
def LeftAlone (P : Platform) (cfg : ClientConfig) (d : Device) : DeviceEvent → Prop
  | .deliver place _ _ _ => ∀ event ∈ d.raised[place]?, LeavesEvent P cfg d.watcher event
  | .sync place _ _ _ => ∀ path ∈ d.flushing[place]?, LeavesPath cfg d.watcher path
  | .apply .. | .finish _ | .flush => True

/-! ### What is enqueued -/

namespace SameSending

variable {e e' : Engine}

theorem refl (e : Engine) : SameSending e e := ⟨rfl, rfl⟩

end SameSending

theorem nextDeviceSeq_modify (m : OutboxManager) (opId : String) (f : OutboxEntry → OutboxEntry) :
    (m.modify opId f).nextDeviceSeq = m.nextDeviceSeq := by
  unfold OutboxManager.modify
  split <;> rfl

/-- An op that is enqueued takes the next sequence of the device. -/
theorem nextDeviceSeq_enqueueLocalChange (now : Time) (uuid : Uuid) (draft : FileOpDraft)
    (e : Engine) :
    (e.enqueueLocalChange now uuid draft).outbox.nextDeviceSeq = e.outbox.nextDeviceSeq + 1 := by
  have hflush : ∀ e : Engine,
      (e.flushOutbox now).outbox.nextDeviceSeq = e.outbox.nextDeviceSeq := by
    intro e
    rcases flushOutbox_cases now e with h | ⟨entry, -, ⟨-, h⟩ | h⟩ <;> rw [h]
    · rfl
    · exact nextDeviceSeq_modify _ _ _
  rw [enqueueLocalChange, hflush]
  rfl

theorem not_sameSending_enqueue (now : Time) (uuid : Uuid) (draft : FileOpDraft) (e e' : Engine)
    (h : e'.outbox = e.outbox) : ¬ SameSending e (e'.enqueueLocalChange now uuid draft) := by
  intro hsame
  have hseq := nextDeviceSeq_enqueueLocalChange now uuid draft e'
  rw [hsame.outbox, h] at hseq
  omega

section

variable {P : Platform} {cfg : ClientConfig} {w : VaultWatcher}

/-- The content of a file that is there can be built. -/
theorem isSome_buildContentPayload (P : Platform) (cfg : ClientConfig) {vault : Vault}
    {path : String} (h : vault.contains path = true) :
    (buildContentPayload P cfg vault path).isSome = true := by
  obtain ⟨bytes, hbytes⟩ : ∃ bytes, vault.readBytes path = some bytes := by
    obtain ⟨row, hrow⟩ := Option.isSome_iff_exists.mp h
    exact ⟨row.2, by rw [Vault.readBytes, hrow]; rfl⟩
  have hplain : (readPlaintextBytes P vault path).isSome = true := by
    unfold readPlaintextBytes
    split <;> simp [hbytes]
  obtain ⟨plaintext, hplaintext⟩ := Option.isSome_iff_exists.mp hplain
  unfold buildContentPayload
  split
  · simp [hplaintext]
  split <;> simp [hbytes]

theorem contains_of_hashPath {vault : Vault} {path hash : String}
    (h : hashPath P cfg vault path = some hash) : vault.contains path = true := by
  cases hrow : vault.get? path with
  | some row => rw [Vault.contains, hrow, Option.isSome_some]
  | none =>
    have hread : vault.readBytes path = none := by rw [Vault.readBytes, hrow, Option.map_none]
    simp [hashPath, readPlaintextBytes, hread] at h

/-- A path is synced unless the watcher leaves it alone. -/
theorem sameSending_syncPath_iff (now : Time) (opId fileId : Uuid) (path : String) :
    SameSending w.engine (w.syncPath P cfg now opId fileId path).engine
      ↔ LeavesPath cfg w path := by
  unfold VaultWatcher.syncPath
  split
  · next hactive => exact ⟨fun _ => Or.inr (Or.inl hactive), fun _ => .refl _⟩
  next hactive =>
  dsimp only
  unfold Engine.syncPath
  split
  · next hleft =>
    refine ⟨fun _ => ?_, fun _ => .refl _⟩
    rw [Bool.or_eq_true, Bool.not_eq_true'] at hleft
    exact hleft.imp_right Or.inr
  next hthere =>
  rw [Bool.or_eq_true, Bool.not_eq_true', not_or, Bool.not_eq_false] at hthere
  obtain ⟨hignored, hcontains⟩ := hthere
  have hnot : ¬ LeavesPath cfg w path := by
    rintro (h | h | h)
    · exact hignored h
    · exact hactive h
    · rw [hcontains] at h
      simp at h
  refine iff_of_false ?_ hnot
  obtain ⟨payload, hpayload⟩ := Option.isSome_iff_exists.mp
    (isSome_buildContentPayload P cfg hcontains)
  unfold makeContentOp
  simp only [hpayload]
  exact not_sameSending_enqueue now opId _ _ _ rfl

theorem engine_queuePath (path : String) : (w.queuePath P cfg path).engine = w.engine := by
  unfold VaultWatcher.queuePath
  split
  · rfl
  split
  · rfl
  split
  · rfl
  split <;> rfl

theorem sameSending_handleDelete_iff (now : Time) (opId : Uuid) (path : String) :
    SameSending w.engine (w.handleDelete P cfg now opId path).engine
      ↔ LeavesEvent P cfg w (.deleted path) := by
  unfold VaultWatcher.handleDelete VaultWatcher.keepsDelete LeavesEvent Engine.handleDelete
  cases hpath : normalizePath P path with
  | error _ =>
    refine iff_of_true ?_ (Or.inr fun canonical h => by simp [hpath] at h)
    simp only [Bool.false_eq_true, if_false]
    split <;> exact .refl _
  | ok canonical =>
    dsimp only
    split
    · next hactive =>
      refine iff_of_true (.refl _) (Or.inr fun canonical' h => ?_)
      obtain rfl := Except.ok.inj (hpath.symm.trans h)
      exact Or.inr hactive
    next hactive =>
    dsimp only
    split
    · next hsuspended => exact iff_of_true (.refl _) (Or.inl hsuspended)
    next hsuspended =>
    cases hentry : w.engine.index.byPath canonical with
    | none =>
      refine iff_of_true (.refl _) (Or.inr fun canonical' h => ?_)
      obtain rfl := Except.ok.inj (hpath.symm.trans h)
      exact Or.inl hentry
    | some entry =>
      refine iff_of_false (not_sameSending_enqueue now opId _ _ _ rfl) ?_
      rintro (h | h)
      · exact hsuspended h
      · rcases h canonical hpath with h | h
        · simp [hentry] at h
        · exact hactive h

theorem sameSending_handleRename_iff (now : Time) (opId fileId : Uuid) (oldPath newPath : String) :
    SameSending w.engine (w.handleRename P cfg now opId fileId oldPath newPath).engine
      ↔ LeavesEvent P cfg w (.renamed oldPath newPath) := by
  unfold VaultWatcher.handleRename VaultWatcher.keepsRename Engine.handleRename
  cases hold : normalizePath P oldPath with
  | error _ =>
    refine iff_of_true ?_ (Or.inr fun oldCanonical newCanonical h => by simp [hold] at h)
    simp only [Bool.false_eq_true, if_false]
    split <;> exact .refl _
  | ok oldCanonical =>
  cases hnew : normalizePath P newPath with
  | error _ =>
    refine iff_of_true ?_ (Or.inr fun oldCanonical newCanonical _ h => by simp [hnew] at h)
    simp only [Bool.false_eq_true, if_false]
    split <;> exact .refl _
  | ok newCanonical =>
  have hleaves : LeavesEvent P cfg w (.renamed oldPath newPath) ↔
      w.engine.suspended = true ∨ LeavesRename cfg w oldCanonical newCanonical := by
    refine or_congr_right ⟨fun h => h _ _ hold hnew, fun h o n ho hn => ?_⟩
    obtain rfl := Except.ok.inj (hold.symm.trans ho)
    obtain rfl := Except.ok.inj (hnew.symm.trans hn)
    exact h
  rw [hleaves]
  unfold LeavesRename
  by_cases hsuspended : w.engine.suspended = true
  · refine iff_of_true ?_ (Or.inl hsuspended)
    dsimp only
    rw [if_pos hsuspended]
    split <;> exact .refl _
  by_cases hignored : cfg.ignores newCanonical = true
  · refine iff_of_true ?_ (Or.inr (Or.inl hignored))
    dsimp only
    rw [if_neg hsuspended, if_pos hignored]
    split <;> exact .refl _
  dsimp only
  rw [if_neg hsuspended, if_neg hignored, or_iff_right hsuspended, or_iff_right hignored]
  obtain hentry | ⟨entry, hentry⟩ := Option.eq_none_or_eq_some
    (w.engine.index.byPath oldCanonical)
  · simp only [hentry]
    exact sameSending_syncPath_iff now opId fileId newCanonical
  · simp only [hentry]
    split
    · next hactive => exact iff_of_true (.refl _) hactive
    · next hactive => exact iff_of_false (not_sameSending_enqueue now opId _ _ _ rfl) hactive

/-- What is written of an op enqueues and sends nothing. -/
theorem sameSending_beginApply (cfg : ClientConfig) (sessions : List String) (now : Time)
    (op : FileOp) (contentVV : Option VersionVector) (pathClock : Option PathClock)
    (e : Engine) :
    SameSending e (beginApply P cfg sessions now op contentVV pathClock e).engine := by
  have hcontent : ∀ target hash applied (e' : Engine), SameSending e e' →
      SameSending e (beginContent P cfg sessions op target hash applied e').engine := by
    intro target hash applied e' h
    unfold beginContent
    split
    · split <;> exact h
    split
    · exact ⟨h.outbox, h.outgoing⟩
    split
    · exact h
    split
    · exact h
    · exact ⟨h.outbox, h.outgoing⟩
  unfold beginApply
  dsimp only
  split
  · split
    · exact ⟨rfl, rfl⟩
    split <;> exact ⟨rfl, rfl⟩
  split
  · split
    · split
      · split <;> exact ⟨rfl, rfl⟩
      · exact ⟨rfl, rfl⟩
    · exact ⟨rfl, rfl⟩
  split
  · split
    · exact ⟨rfl, rfl⟩
    split
    · exact ⟨rfl, rfl⟩
    · exact hcontent _ _ _ _ ⟨rfl, rfl⟩
  · exact ⟨rfl, rfl⟩

/-- What one event does on a device. -/
theorem sameSending_deviceStep_iff (d : Device) (e : DeviceEvent) :
    SameSending d.watcher.engine (deviceStep P cfg d e).watcher.engine ↔ LeftAlone P cfg d e := by
  cases e with
  | apply now op contentVV pathClock =>
    exact iff_of_true (sameSending_beginApply cfg _ now op contentVV pathClock _) trivial
  | finish place =>
    refine iff_of_true ?_ trivial
    unfold deviceStep
    dsimp only
    split
    · exact .refl _
    · exact ⟨rfl, rfl⟩
  | deliver place now opId fileId =>
    obtain hnone | ⟨event, hevent⟩ := Option.eq_none_or_eq_some d.raised[place]?
    · simp only [deviceStep, LeftAlone, hnone]
      exact iff_of_true (.refl _) (by simp)
    simp only [deviceStep, LeftAlone, hevent, Option.mem_some_iff, forall_eq']
    cases event with
    | changed path =>
      refine iff_of_true ?_ trivial
      have hsame : (deliver P cfg now opId fileId d.watcher (.changed path)).engine
          = d.watcher.engine := engine_queuePath path
      rw [hsame]
      exact .refl _
    | deleted path => exact sameSending_handleDelete_iff now opId path
    | renamed oldPath newPath => exact sameSending_handleRename_iff now opId fileId oldPath newPath
  | flush =>
    refine iff_of_true ?_ trivial
    unfold deviceStep
    dsimp only
    split <;> exact .refl _
  | sync place now opId fileId =>
    obtain hnone | ⟨path, hpath⟩ := Option.eq_none_or_eq_some d.flushing[place]?
    · simp only [deviceStep, LeftAlone, hnone]
      exact iff_of_true (.refl _) (by simp)
    simp only [deviceStep, LeftAlone, hpath, Option.mem_some_iff, forall_eq']
    exact sameSending_syncPath_iff now opId fileId path

/-- A flush after a write, which is the only one that waits. -/
theorem sameSending_flush_iff (now : Time) (fresh : String → Uuid × Uuid) {path canonical : String}
    (hpath : normalizePath P path = .ok canonical) (hqueued : w.queued = []) :
    SameSending w.engine ((w.queuePath P cfg path).flush P cfg now fresh).engine
      ↔ w.engine.suspended = true ∨ LeavesPath cfg w canonical := by
  unfold VaultWatcher.queuePath
  by_cases hsuspended : w.engine.suspended = true
  · refine iff_of_true ?_ (Or.inl hsuspended)
    rw [if_pos hsuspended, VaultWatcher.flush, if_pos hsuspended]
    exact .refl _
  rw [if_neg hsuspended, hpath, or_iff_right hsuspended]
  dsimp only
  split
  · next hleft =>
    refine iff_of_true ?_ ?_
    · rw [VaultWatcher.flush, if_neg hsuspended, hqueued]
      exact .refl _
    · rw [Bool.or_eq_true] at hleft
      exact hleft.imp_right Or.inl
  · rw [hqueued, List.contains_nil, if_neg Bool.false_ne_true, VaultWatcher.flush,
      if_neg hsuspended]
    exact sameSending_syncPath_iff (w := { w with queued := [] }) now _ _ canonical

end

/-! ### No echo -/

/-- **A write of what the index records is echoed unless the watcher is suspended or ignores
the path or the file is open in a session; and no step of any device enqueues or sends anything
exactly where each event is one the watcher has nothing to do with.** -/
theorem noEcho_iff_leftAlone {ι : Type} [DecidableEq ι] (P : Platform) (cfg : ι → ClientConfig) :
    (∀ (i : ι) (w : VaultWatcher) (now : Time) (fresh : String → Uuid × Uuid)
      (path canonical : String), normalizePath P path = .ok canonical →
      AsRecorded P (cfg i) w canonical → w.queued = [] →
      (SameSending w.engine ((w.queuePath P (cfg i) path).flush P (cfg i) now fresh).engine
        ↔ w.engine.suspended = true ∨ (cfg i).ignores canonical = true ∨
          w.isRealtimeActivePath canonical = true)) ∧
    ∀ (devices : ι → Device) (es : List (ι × DeviceEvent)),
      Run.EachStep (devicesStep P cfg) (NoEcho P cfg) devices es
        ↔ Run.EachStep (devicesStep P cfg)
            (fun devices e => LeftAlone P (cfg e.1) (devices e.1) e.2) devices es := by
  constructor
  · intro i w now fresh path canonical hpath hrecorded hqueued
    rw [sameSending_flush_iff now fresh hpath hqueued]
    have hthere : w.engine.vault.contains canonical = true := by
      obtain ⟨entry, -, hash, -, hhash⟩ := hrecorded
      exact contains_of_hashPath hhash
    simp [LeavesPath, hthere]
  · intro devices es
    have hstep : ∀ (devices : ι → Device) (e : ι × DeviceEvent),
        NoEcho P cfg devices e ↔ LeftAlone P (cfg e.1) (devices e.1) e.2 := by
      intro devices e
      rw [← sameSending_deviceStep_iff]
      unfold NoEcho devicesStep
      constructor
      · intro h
        simpa using h e.1
      · intro h i
        by_cases hi : i = e.1
        · subst hi
          simpa using h
        · rw [Function.update_of_ne hi]
          exact .refl _
    exact ⟨.mono fun devices e => (hstep devices e).mp,
      .mono fun devices e => (hstep devices e).mpr⟩

/-! ### A note of another device -/

/-- A device without files. -/
def sampleIdleDevice : Device where
  watcher :=
    { engine :=
        { index := { device := { deviceId := "d2", vaultId := some "v" } }
          outbox := OutboxManager.create "d2" 1 [] } }

/-- The device is told of a note that another one made: the note is written and indexed. -/
def sampleApply : List (Bool × DeviceEvent) :=
  [(true, .apply 1 (sampleContentOp .create "o1" "d1" "f1" 1 (some "a.md") (sampleVV "d1" 1) "one")
      none none),
    (true, .finish 0)]

/-- The event of the write is delivered, and the watcher flushes. -/
def sampleFlush : List (Bool × DeviceEvent) :=
  [(true, .deliver 0 2 (sampleId 1) (sampleId 2)), (true, .flush),
    (true, .sync 0 3 (sampleId 3) (sampleId 4))]

/-- Settings under which every path is ignored. -/
def sampleIgnoring (_ : Bool) : ClientConfig := { sampleConfig with ignores := fun _ => true }

/-- The second device when it has applied the note. -/
def sampleNoted : Device :=
  Run.final (devicesStep samplePlatform sampleIgnoring) (fun _ => sampleIdleDevice) sampleApply true

/-- Where every path is ignored nothing is echoed. -/
theorem noEcho_ignored :
    SameSending sampleNoted.watcher.engine
        ((sampleNoted.watcher.queuePath samplePlatform (sampleIgnoring true) "a.md").flush
          samplePlatform (sampleIgnoring true) 2 fun _ => (sampleId 1, sampleId 2)).engine ∧
      Run.EachStep (devicesStep samplePlatform sampleIgnoring)
        (NoEcho samplePlatform sampleIgnoring) (fun _ => sampleIdleDevice)
        (sampleApply ++ sampleFlush) := by
  have hno := noEcho_iff_leftAlone samplePlatform sampleIgnoring
  constructor
  · refine (hno.1 true sampleNoted.watcher 2 _ "a.md" "a.md" (by decide) ?_ rfl).mpr
      (Or.inr (Or.inl rfl))
    exact ⟨_, rfl, _, rfl, by decide⟩
  · refine (hno.2 _ _).mpr ⟨trivial, trivial, ?_, trivial, ?_, trivial⟩
    · intro event h
      obtain rfl := Option.some.inj h
      trivial
    · intro path h
      cases h

/-- **The note is sent back**: it is as the index records it when its event is flushed. -/
theorem not_noEcho_remoteCreate :
    (AsRecorded samplePlatform sampleConfig sampleNoted.watcher "a.md" ∧
      ¬ SameSending sampleNoted.watcher.engine
        ((sampleNoted.watcher.queuePath samplePlatform sampleConfig "a.md").flush
          samplePlatform sampleConfig 2 fun _ => (sampleId 1, sampleId 2)).engine) ∧
      ¬ Run.EachStep (devicesStep samplePlatform fun _ : Bool => sampleConfig)
        (NoEcho samplePlatform fun _ : Bool => sampleConfig) (fun _ => sampleIdleDevice)
        (sampleApply ++ sampleFlush) := by
  refine ⟨⟨⟨_, rfl, _, rfl, by decide⟩, fun hsame => ?_⟩, ?_⟩
  · have houtbox := hsame.outbox
    revert houtbox
    decide
  · rintro ⟨-, -, -, -, h, -⟩
    have houtbox := (h true).outbox
    revert houtbox
    decide

end ObsidianSync
