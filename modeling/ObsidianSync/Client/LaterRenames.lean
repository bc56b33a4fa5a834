import ObsidianSync.Client.PathClocks
import ObsidianSync.Client.Reconcile

/-!
# Later renames

A rename carries a clock one above the client's counter, and the server applies it if it wins
over the clock the file has.  So that a rename is applied which no other one is concurrent with,
it has to win over every clock of the file that the client has seen.  But the counter does not
follow the clocks that come with answers and in the manifest, nor the one the server gives a
created file, and a new engine counts from zero.

## Main definitions

* `ClientEvent`, `clientStep` — a client through its restarts.
* `ClientHistory` — the client with the path clocks it has seen.
* `LaterRenameWins` — the next rename wins over all of them, and the server applies it.
* `Observed` — each clock that is shown is covered, a rename leaves a counter to count on from,
  and a restart comes when all are covered by zero.

## Main results

* `learns_clientStep` — where an event that is no restart takes the counter and the index.
* `laterRenameWins_iff_observed` — **in every run each rename wins over what was seen exactly
  if each clock is covered when it is shown.**
* `not_laterRenameWins_ownCreate` — the first rename of a file the client created is lost.
-/

namespace ObsidianSync

open Engine

/-! ### Renames -/

/-- The entry `handleRename` makes a rename for. -/
def VaultWatcher.issuedRename (P : Platform) (cfg : ClientConfig) (w : VaultWatcher)
    (oldPath newPath : String) : Option FileIndexEntry :=
  if w.keepsRename P oldPath newPath || w.engine.suspended then none
  else
    match normalizePath P oldPath, normalizePath P newPath with
    | .ok oldCanonical, .ok newCanonical =>
      if cfg.ignores newCanonical then none else w.engine.index.byPath oldCanonical
    | _, _ => none

/-- A rename takes the next clock; where none is made the counter stays. -/
theorem lamport_watcherRename (P : Platform) (cfg : ClientConfig) (now : Time)
    (opId fileId : Uuid) (oldPath newPath : String) (w : VaultWatcher) :
    (w.handleRename P cfg now opId fileId oldPath newPath).engine.lamport
      = if (w.issuedRename P cfg oldPath newPath).isSome then nextLamport w.engine.lamport
        else w.engine.lamport := by
  unfold VaultWatcher.handleRename VaultWatcher.issuedRename
  cases w.keepsRename P oldPath newPath with
  | true => rfl
  | false =>
    simp only [Bool.false_eq_true, if_false, Bool.false_or]
    unfold Engine.handleRename
    cases w.engine.suspended with
    | true => rfl
    | false =>
      simp only [Bool.false_eq_true, if_false]
      cases normalizePath P oldPath with
      | error => rfl
      | ok oldCanonical =>
        cases normalizePath P newPath with
        | error => rfl
        | ok newCanonical =>
          dsimp only
          by_cases hignored : cfg.ignores newCanonical = true
          · simp [hignored]
          simp only [hignored, Bool.false_eq_true, if_false]
          cases w.engine.index.byPath oldCanonical with
          | none => exact lamport_syncPath P cfg now opId fileId newCanonical w.engine
          | some entry => exact lamport_enqueueLocalChange now opId _ _

theorem sameEntries_reconcileItem (P : Platform) (cfg : ClientConfig) (now : Time)
    (fresh : Uuid × Uuid) (item : ReconcileItem) (w : VaultWatcher) :
    SameEntries w.engine
      (VaultWatcher.reconcileItem P cfg now fresh { watcher := w } item).watcher.engine := by
  unfold VaultWatcher.reconcileItem
  cases item with
  | rename rename =>
    have hrename : SameEntries w.engine
        (makeRenameOp cfg rename.fileId rename.newPath (classifyFileType rename.newPath)
          w.engine).2 := ⟨rfl, rfl⟩
    exact hrename.trans (sameEntries_enqueueLocalChange now fresh.1 _ _)
  | sync path =>
    dsimp only
    split
    · exact .refl _
    · exact sameEntries_enqueueLocalChange now fresh.1 _ _
  | delete entry =>
    dsimp only
    split
    · exact .refl _
    · have hdelete : SameEntries w.engine
          (makeDeleteOp cfg entry.fileId
            (((w.engine.index.byFileId entry.fileId).map FileIndexEntry.type).getD .note)
            w.engine).2 := ⟨rfl, rfl⟩
      exact hdelete.trans (sameEntries_enqueueLocalChange now fresh.1 _ _)

@[simp] theorem lamport_enqueue (now : Time) (opId : Uuid) (draft : FileOpDraft) (e : Engine)
    (done : Enqueued) : (done.enqueue now opId draft e).watcher.engine.lamport = e.lamport :=
  lamport_enqueueLocalChange now opId draft e

/-- The renames and deletes of a reconciliation take clocks. -/
theorem lamport_reconcileItem_le (P : Platform) (cfg : ClientConfig) (now : Time)
    (fresh : Uuid × Uuid) (item : ReconcileItem) (w : VaultWatcher) :
    w.engine.lamport ≤
      (VaultWatcher.reconcileItem P cfg now fresh { watcher := w } item).watcher.engine.lamport :=
    by
  unfold VaultWatcher.reconcileItem
  cases item with
  | rename rename =>
    dsimp only
    rw [lamport_enqueue]
    exact le_increment w.engine.lamport
  | sync path =>
    dsimp only
    split
    · exact le_rfl
    · rw [lamport_enqueue]
  | delete entry =>
    dsimp only
    split
    · exact le_rfl
    · rw [lamport_enqueue]
      exact le_increment w.engine.lamport

/-! ### A client through its restarts -/

/-- What happens to a client: events of the plugin, the steps of its longer jobs, and restarts. -/
inductive ClientEvent (D : Type)
  | plugin (event : PluginEvent D)
  /-- A step of `reconcile`. -/
  | reconcile (now : Time) (fresh : Uuid × Uuid) (item : ReconcileItem)
  /-- A file of the manifest, in an initial sync or a force pull. -/
  | manifestEntry (now : Time) (source : ContentSource) (entry : ManifestEntry)
  | endInitialSync (watermarkSeq : ℕ)
  /-- What a force pull does besides. -/
  | beginForcePull
  | removeStray (path : String)
  | endForcePull (watermarkSeq : ℕ)
  | suspend
  | resume
  | pause (paused : Bool)
  /-- A new engine is made from the persisted index, after the old one was stopped or without. -/
  | restart (stopped : Bool)

/-- A client with the path clocks it was shown, and those of its own renames, by file. -/
structure ClientHistory (D : Type) where
  plugin : Plugin D
  shown : List (String × PathClock) := []

/-- The start of a force pull: unless ops may be on their way, those that were not sent are
dropped and the hashes of downloaded content forgotten. -/
def VaultWatcher.beginForcePull (w : VaultWatcher) : VaultWatcher :=
  let w := w.suspend
  let (blocked, outbox) := w.engine.outbox.discardUnsent
  let e := persistOutbox { w.engine with outbox }
  if blocked then { w with engine := e }.resume else { w with engine := clearDownloaded e }

/-- `new SyncEngine`, from the persisted index. -/
def Engine.restarted (cfg : ClientConfig) (e : Engine) : Engine :=
  { index := e.index
    outbox := OutboxManager.create cfg.deviceId e.index.device.nextDeviceSeq e.index.device.outbox
    vault := e.vault
    paused := e.paused }

section

variable {D : Type} (P : Platform) (cfg : ClientConfig)

namespace ClientHistory

variable (h : ClientHistory D)

/-- The engine of the plugin. -/
def engine : Engine := h.plugin.watcher.engine

/-- The path clocks an event shows: of an op that is applied and of the answer to it, of an op
of the client's own that is acked, and of a file of the manifest. -/
def received : ClientEvent D → List (String × PathClock)
  | .plugin (.resume _ place) => h.plugin.batches[place]?.elim [] Batch.shown
  | .plugin (.receive _ (.opAck opId _ resultingClocks _)) =>
    (h.engine.outbox.map.get? opId).elim [] fun entry =>
      resultingClocks.pathClock.toList.map fun clock => (entry.op.fileId, clock)
  | .manifestEntry _ _ entry => [(entry.fileId, entry.pathClock)]
  | _ => []

/-- The clock of the next rename. -/
def nextClock : PathClock :=
  { lamport := nextLamport h.engine.lamport, deviceId := cfg.deviceId }

/-- The clock of the rename an event makes, if it makes one. -/
def issued : ClientEvent D → List (String × PathClock)
  | .plugin (.rename _ _ _ oldPath newPath) =>
    (h.plugin.watcher.issuedRename P cfg oldPath newPath).toList.map fun entry =>
      (entry.fileId, h.nextClock cfg)
  | .reconcile _ _ (.rename rename) => [(rename.fileId, h.nextClock cfg)]
  | _ => []

/-- A path clock of a file that the client has seen, or has in its index. -/
def Seen (fileId : String) (clock : PathClock) : Prop :=
  (fileId, clock) ∈ h.shown ∨ h.engine.index.pathClock fileId = some clock

/-- The counter after the clocks that an event carries itself. -/
def counted : ClientEvent D → ℕ
  | .plugin (.resume _ place) =>
    h.plugin.batches[place]?.elim h.engine.lamport fun batch =>
      observe batch.current.op h.engine.lamport
  | _ => h.engine.lamport

end ClientHistory

/-- The next rename of a file wins over every path clock of it that was seen.  So the server
applies it, if the clock it has for the file is among them. -/
structure LaterRenameWins (h : ClientHistory D) : Prop where
  wins : ∀ fileId newPath type clock, h.Seen fileId clock →
    ∃ made, (makeRenameOp cfg fileId newPath type h.engine).1.pathClock = some made ∧
      pathClockWins made clock = true
  applied : ∀ fileId newPath type opId now uuid userId s applied row,
    accepted P now uuid (h.engine.outbox.opOfDraft opId
      (makeRenameOp cfg fileId newPath type h.engine).1) userId s = some applied →
    s.getFile cfg.vaultId fileId = some row → h.Seen fileId row.pathClock →
    ∃ desired path, normalizePath P newPath = .ok desired ∧
      uniquePath P s cfg.vaultId desired fileId = .ok path ∧
      applied.file = renamedFile P now row path (h.nextClock cfg)

/-- Every clock that was seen is covered by the counter. -/
def CaughtUp (h : ClientHistory D) : Prop :=
  ∀ fileId clock, h.Seen fileId clock → Covered cfg.deviceId h.engine.lamport clock

/-- Each clock an event shows is covered by the counter, and one can count on from the clock of a
rename it makes; at a restart the clocks that were seen are covered by zero. -/
def Observed (h : ClientHistory D) : ClientEvent D → Prop
  | .restart _ => ∀ fileId clock, h.Seen fileId clock → Covered cfg.deviceId 0 clock
  | event =>
    (∀ shown ∈ h.received event, Covered cfg.deviceId (h.counted event) shown.2) ∧
      ∀ made ∈ h.issued P cfg event, CountsUp made.2.lamport

variable {P cfg}

/-- The next rename wins exactly if the counter has caught up. -/
theorem laterRenameWins_iff_caughtUp {h : ClientHistory D} :
    LaterRenameWins P cfg h ↔ CaughtUp cfg h := by
  constructor
  · intro hwins fileId clock hseen
    obtain ⟨made, hmade, hbeats⟩ := hwins.wins fileId "" .note clock hseen
    obtain rfl : h.nextClock cfg = made := Option.some.inj hmade
    exact pathClockWins_next_iff.mp hbeats
  · intro hcaught
    refine ⟨?_, ?_⟩
    · intro fileId newPath type clock hseen
      exact ⟨_, rfl, pathClockWins_next_iff.mpr (hcaught fileId clock hseen)⟩
    · intro fileId newPath type opId now uuid userId s applied row haccepted hrow hseen
      have hbeats : pathClockWins (h.nextClock cfg) row.pathClock = true :=
        pathClockWins_next_iff.mpr (hcaught fileId row.pathClock hseen)
      have heffect := (accepted_spec haccepted).effect
      have hclock : ∀ clock, requiredPathClock (some (h.nextClock cfg)) = .ok clock →
          clock = h.nextClock cfg := by
        intro clock hok
        exact (Option.some.inj (eq_of_requiredPathClock hok)).symm
      cases heffect with
      | created kind | deleted row' kind | restored row' kind => cases kind
      | updated row' kind | conflicted row' kind =>
        rcases kind with ⟨kind, -⟩ | kind <;> cases kind
      | lostRename row' kind clock_eq loses =>
        obtain rfl := Option.some.inj (hrow.symm.trans row')
        rw [hclock _ clock_eq, hbeats] at loses
        cases loses
      | renamed row' kind clock_eq wins canonical unique =>
        obtain rfl := Option.some.inj (hrow.symm.trans row')
        exact ⟨_, _, canonical, unique, by rw [hclock _ clock_eq]⟩

theorem observed_iff (h : ClientHistory D) {event : ClientEvent D}
    (hevent : ∀ stopped, event ≠ .restart stopped) :
    Observed P cfg h event ↔
      (∀ shown ∈ h.received event, Covered cfg.deviceId (h.counted event) shown.2) ∧
        ∀ made ∈ h.issued P cfg event, CountsUp made.2.lamport := by
  cases event with
  | restart stopped => exact absurd rfl (hevent stopped)
  | plugin | reconcile | manifestEntry | endInitialSync | beginForcePull | removeStray
  | endForcePull | suspend | resume | pause => exact Iff.rfl

/-- The clock of a rename has the device of the client. -/
theorem deviceId_of_issued (h : ClientHistory D) {event : ClientEvent D}
    {made : String × PathClock} (hmade : made ∈ h.issued P cfg event) :
    made.2.deviceId = cfg.deviceId := by
  unfold ClientHistory.issued at hmade
  split at hmade
  · obtain ⟨entry, -, rfl⟩ := List.mem_map.mp hmade
    rfl
  · obtain rfl := List.mem_singleton.mp hmade
    rfl
  · simp at hmade

end

section

variable {D : Type} [SemilatticeSup D] [OrderBot D] (P : Platform) (crdt : Crdt D)
  (cfg : ClientConfig)

/-- The plugin after an event. -/
def clientPlugin (p : Plugin D) : ClientEvent D → Plugin D
  | .plugin event => pluginStep P crdt cfg p event
  | .reconcile now fresh item =>
    p.withWatcher (VaultWatcher.reconcileItem P cfg now fresh { watcher := p.watcher } item).watcher
  | .manifestEntry now source entry =>
    p.withEngine (applyManifestEntry P source now entry p.watcher.engine).2
  | .endInitialSync watermarkSeq =>
    let e := p.watcher.engine
    p.withEngine (send { e with index := e.index.setAppliedSeq watermarkSeq }
      (.getOps watermarkSeq))
  | .beginForcePull => p.withWatcher p.watcher.beginForcePull
  | .removeStray path => p.withEngine (removeStray p.watcher.engine path)
  | .endForcePull watermarkSeq =>
    let e := p.watcher.engine
    p.withWatcher
      { p.watcher with engine := { e with index := e.index.setAppliedSeq watermarkSeq } }.resume
  | .suspend => p.withWatcher p.watcher.suspend
  | .resume => p.withWatcher p.watcher.resume
  | .pause paused => p.withEngine { p.watcher.engine with paused }
  | .restart stopped =>
    let e := p.watcher.engine
    { watcher := { engine := (if stopped then persistOutbox e else e).restarted cfg } }

/-- The plugin after an event, and the clocks that it has seen. -/
def clientStep (h : ClientHistory D) (event : ClientEvent D) : ClientHistory D :=
  { plugin := clientPlugin P crdt cfg h.plugin event
    shown := h.shown ++ h.received event ++ h.issued P cfg event }

variable {P crdt cfg}

/-! ### One event -/

theorem learns_watcherFlush (new : List (String × PathClock)) (now : Time)
    (fresh : String → Uuid × Uuid) (w : VaultWatcher) :
    Learns new w.engine (w.flush P cfg now fresh).engine := by
  have hpath : ∀ (w : VaultWatcher) (path : String),
      Learns new w.engine (w.syncPath P cfg now (fresh path).1 (fresh path).2 path).engine := by
    intro w path
    unfold VaultWatcher.syncPath
    split
    · exact .refl new w.engine
    · exact .of_files (sameEntries_syncPath P cfg now _ _ path w.engine).files
        (lamport_syncPath P cfg now _ _ path w.engine).ge
  have hpaths : ∀ (paths : List String) (w : VaultWatcher), Learns new w.engine
      (paths.foldl (fun w path => w.syncPath P cfg now (fresh path).1 (fresh path).2 path)
        w).engine := by
    intro paths
    induction paths with
    | nil => exact fun w => .refl new w.engine
    | cons path paths ih => exact fun w => (hpath w path).trans (ih _)
  unfold VaultWatcher.flush
  split
  · exact .refl new w.engine
  · exact hpaths w.queued { w with queued := [] }

theorem learns_watcherRename (new : List (String × PathClock)) (now : Time) (opId fileId : Uuid)
    (oldPath newPath : String) (w : VaultWatcher) :
    Learns new w.engine (w.handleRename P cfg now opId fileId oldPath newPath).engine := by
  refine .of_files ?_ ?_
  · unfold VaultWatcher.handleRename
    split
    · rfl
    · exact (sameEntries_handleRename P cfg now opId fileId oldPath newPath w.engine).files
  · rw [lamport_watcherRename]
    split
    · exact le_increment w.engine.lamport
    · exact le_rfl

theorem learns_watcherDelete (new : List (String × PathClock)) (now : Time) (opId : Uuid)
    (path : String) (w : VaultWatcher) :
    Learns new w.engine (w.handleDelete P cfg now opId path).engine := by
  unfold VaultWatcher.handleDelete
  split
  · exact .refl new w.engine
  · exact .of_files (sameEntries_handleDelete P cfg now opId path w.engine).files
      (lamport_handleDelete_le P cfg now opId path w.engine)

/-- What an event of the plugin shows is all it learns. -/
theorem learns_pluginStep (h : ClientHistory D) (event : PluginEvent D) :
    Learns (h.received (.plugin event)) h.engine
      (pluginStep P crdt cfg h.plugin event).watcher.engine := by
  -- clocks come in with messages and answers; what the device does moves the counter
  cases event with
  | write path bytes => exact .withEngine (.of_files rfl le_rfl)
  | queuePath path =>
    refine .withWatcher ?_
    rw [engine_queuePath]
    exact .refl _ _
  | flush now fresh => exact .withWatcher (learns_watcherFlush _ now fresh _)
  | rename now opId fileId oldPath newPath =>
    exact .withWatcher (learns_watcherRename _ now opId fileId oldPath newPath _)
  | delete now opId path => exact .withWatcher (learns_watcherDelete _ now opId path _)
  | forceContent now uuid fileId path type dominateVV remoteExists =>
    unfold pluginStep
    dsimp only
    split
    · exact .refl _ _
    · exact Learns.startForced _ P now uuid _ _
  | forceDelete now uuid fileId type =>
    have hclock : Learns (h.received (.plugin (.forceDelete now uuid fileId type))) h.engine
        (h.plugin.withEngine
          (makeDeleteOp cfg fileId type h.plugin.watcher.engine).2).watcher.engine :=
      .withEngine (.of_files rfl (le_increment _))
    exact hclock.trans (Learns.startForced _ P now uuid _ _)
  | answerForced now place result =>
    unfold pluginStep Plugin.answerForced
    dsimp only
    split
    · exact .refl _ _
    · exact .withEngine (.endForced now _ result)
  | openFile fileId => exact .of_files rfl le_rfl
  | leaveFile fileId => exact .of_files rfl le_rfl
  | session fileId event =>
    unfold pluginStep
    dsimp only
    split
    · exact .refl _ _
    · exact .of_files rfl le_rfl
  | receive now message => exact .withEngine (.handleMessage now message)
  | resume now place =>
    unfold pluginStep Plugin.resume ClientHistory.received
    dsimp only
    cases h.plugin.batches[place]? with
    | none => exact .refl _ _
    | some batch => exact .withEngine (learns_resumeBatch now batch)
  | transport state =>
    exact .withEngine (.of_files (sameEntries_handleTransportState cfg state _).files
      (lamport_handleTransportState cfg state _).ge)
  | resolveText conflict text => exact .of_files rfl le_rfl
  | resolveByHash conflict side =>
    unfold pluginStep Plugin.resolveByHash
    dsimp only
    split <;> exact .of_files rfl le_rfl

/-- **An event that is no restart adds the clocks it shows to those of the index, and does not
lower the counter.** -/
theorem learns_clientStep (h : ClientHistory D) {event : ClientEvent D}
    (hevent : ∀ stopped, event ≠ .restart stopped) :
    Learns (h.received event) h.engine (clientStep P crdt cfg h event).engine := by
  cases event with
  | plugin event => exact learns_pluginStep h event
  | reconcile now fresh item =>
    exact .withWatcher (.of_files (sameEntries_reconcileItem P cfg now fresh item _).files
      (lamport_reconcileItem_le P cfg now fresh item _))
  | manifestEntry now source entry =>
    exact .withEngine (learns_applyManifestEntry source now entry)
  | endInitialSync watermarkSeq => exact .withEngine (.of_files rfl le_rfl)
  | beginForcePull =>
    refine .withWatcher ?_
    unfold VaultWatcher.beginForcePull
    dsimp only
    split <;> exact .of_files rfl le_rfl
  | removeStray path =>
    refine .withEngine ⟨?_, le_rfl⟩
    unfold removeStray
    dsimp only
    split
    · exact .of_files rfl
    · exact .markDeleted _ _ _
  | endForcePull watermarkSeq => exact .withWatcher (.of_files rfl le_rfl)
  | suspend => exact .withWatcher (.of_files rfl le_rfl)
  | resume => exact .withWatcher (.of_files rfl le_rfl)
  | pause paused => exact .withEngine (.of_files rfl le_rfl)
  | restart stopped => exact absurd rfl (hevent stopped)

/-- An event that shows clocks leaves the counter at those it carries. -/
theorem lamport_of_received (h : ClientHistory D) {event : ClientEvent D}
    {shown : String × PathClock} (hshown : shown ∈ h.received event) :
    (clientStep P crdt cfg h event).engine.lamport = h.counted event := by
  unfold ClientHistory.received at hshown
  split at hshown
  · next now place => exact lamport_resume P cfg now place h.plugin
  · next now opId vaultSeq clocks conflictId =>
    exact lamport_handleMessage cfg now (.opAck opId vaultSeq clocks conflictId) _
  · next now source entry => exact lamport_applyManifestEntry P now source entry _
  · simp at hshown

/-- An event that makes a rename raises the counter to its clock. -/
theorem lamport_of_issued (h : ClientHistory D) {event : ClientEvent D}
    {shown : String × PathClock} (hshown : shown ∈ h.issued P cfg event) :
    shown.2.lamport = (clientStep P crdt cfg h event).engine.lamport := by
  unfold ClientHistory.issued at hshown
  split at hshown
  · next now opId fileId oldPath newPath =>
    obtain ⟨entry, hentry, rfl⟩ := List.mem_map.mp hshown
    have hissued : (h.plugin.watcher.issuedRename P cfg oldPath newPath).isSome = true := by
      rw [Option.mem_toList.mp hentry]
      rfl
    simp only [clientStep, ClientHistory.engine, clientPlugin, pluginStep]
    rw [lamport_withWatcher, lamport_watcherRename, if_pos hissued]
    rfl
  · next now fresh rename =>
    obtain rfl := List.mem_singleton.mp hshown
    exact (lamport_enqueueLocalChange now fresh.1 _ (makeRenameOp cfg rename.fileId
      rename.newPath (classifyFileType rename.newPath) h.engine).2).symm
  · simp at hshown

/-- The clock of a rename is covered after it exactly if one can count on from it. -/
theorem covered_iff_of_issued (h : ClientHistory D) {event : ClientEvent D}
    {made : String × PathClock} (hmade : made ∈ h.issued P cfg event) :
    Covered cfg.deviceId (clientStep P crdt cfg h event).engine.lamport made.2 ↔
      CountsUp made.2.lamport := by
  have hclock : made.2 = { lamport := made.2.lamport, deviceId := cfg.deviceId } := by
    rw [← deviceId_of_issued h hmade]
  rw [← lamport_of_issued h hmade, hclock]
  exact covered_own_iff

/-! ### Runs -/

/-- A restart starts the counter anew, and leaves what was seen. -/
theorem caughtUp_restart_iff (h : ClientHistory D) (stopped : Bool) :
    CaughtUp cfg (clientStep P crdt cfg h (.restart stopped)) ↔
      Observed P cfg h (.restart stopped) := by
  have hfiles : (clientStep P crdt cfg h (.restart stopped)).engine.index.files
      = h.engine.index.files := by
    cases stopped <;> rfl
  have hseen : ∀ fileId clock,
      (clientStep P crdt cfg h (.restart stopped)).Seen fileId clock ↔ h.Seen fileId clock := by
    intro fileId clock
    rw [ClientHistory.Seen, ClientHistory.Seen, LocalIndex.pathClock_congr hfiles]
    simp [clientStep, ClientHistory.received, ClientHistory.issued]
  simp only [CaughtUp, Observed, hseen]
  exact Iff.rfl

/-- **An event leaves the counter caught up exactly if the clocks it shows are covered.** -/
theorem caughtUp_clientStep_iff {h : ClientHistory D} (hcaught : CaughtUp cfg h)
    (event : ClientEvent D) :
    CaughtUp cfg (clientStep P crdt cfg h event) ↔ Observed P cfg h event := by
  by_cases hrestart : ∃ stopped, event = .restart stopped
  · obtain ⟨stopped, rfl⟩ := hrestart
    exact caughtUp_restart_iff h stopped
  have hevent : ∀ stopped, event ≠ .restart stopped := by
    intro stopped heq
    exact hrestart ⟨stopped, heq⟩
  have hlearns : Learns (h.received event) h.engine (clientStep P crdt cfg h event).engine :=
    learns_clientStep h hevent
  rw [observed_iff h hevent]
  constructor
  · intro hafter
    refine ⟨?_, ?_⟩
    · intro shown hshown
      rw [← lamport_of_received h hshown]
      refine hafter shown.1 shown.2 (Or.inl ?_)
      simp [clientStep, hshown]
    · intro made hmade
      have hcovered := hafter made.1 made.2 (Or.inl (by simp [clientStep, hmade]))
      exact (covered_iff_of_issued h hmade).mp hcovered
  · rintro ⟨hobserved, hcountsUp⟩ fileId clock hseen
    -- what was seen before stays covered, since the counter is not lower
    have hbefore : h.Seen fileId clock → Covered cfg.deviceId
        (clientStep P crdt cfg h event).engine.lamport clock :=
      fun hseen => (hcaught fileId clock hseen).mono hlearns.lamport
    have hreceived : (fileId, clock) ∈ h.received event → Covered cfg.deviceId
        (clientStep P crdt cfg h event).engine.lamport clock := by
      intro hshown
      rw [lamport_of_received h hshown]
      exact hobserved _ hshown
    rcases hseen with hseen | hseen
    · simp only [clientStep, List.mem_append] at hseen
      rcases hseen with (hseen | hseen) | hseen
      · exact hbefore (Or.inl hseen)
      · exact hreceived hseen
      · exact (covered_iff_of_issued h hseen).mpr (hcountsUp _ hseen)
    · rcases hlearns.clocks fileId clock hseen with hseen | hseen
      · exact hbefore (Or.inr hseen)
      · exact hreceived hseen

/-- **In every run, with its restarts, each rename wins over every path clock of its file that
the client has seen, exactly if it starts so, no clock is shown that the counter does not cover,
one can count on from the clock of each rename, and a restart comes only when zero covers all of
them.** -/
theorem laterRenameWins_iff_observed (P : Platform) (crdt : Crdt D) (cfg : ClientConfig)
    (start : ClientHistory D) (events : List (ClientEvent D)) :
    Run.Throughout (clientStep P crdt cfg) (LaterRenameWins P cfg) start events ↔
      CaughtUp cfg start ∧ Run.EachStep (clientStep P crdt cfg) (Observed P cfg) start events := by
  have hrun : CaughtUp cfg start →
      (Run.Throughout (clientStep P crdt cfg) (LaterRenameWins P cfg) start events ↔
        Run.EachStep (clientStep P crdt cfg) (Observed P cfg) start events) := by
    intro hcaught
    refine Run.throughout_iff_eachStep (I := fun _ => True) (fun _ _ _ => trivial) ?_ events
      trivial (laterRenameWins_iff_caughtUp.mpr hcaught)
    intro h event _ hwins
    rw [laterRenameWins_iff_caughtUp]
    exact caughtUp_clientStep_iff (laterRenameWins_iff_caughtUp.mp hwins) event
  constructor
  · intro hwins
    have hcaught : CaughtUp cfg start := laterRenameWins_iff_caughtUp.mp hwins.initial
    exact ⟨hcaught, (hrun hcaught).mp hwins⟩
  · rintro ⟨hcaught, hobserved⟩
    exact (hrun hcaught).mpr hobserved

end

/-! ### A rename that is lost -/

/-- The client that created a note. -/
def sampleCreatorConfig : ClientConfig := { sampleConfig with deviceId := "d2" }

/-- The create of a note by this device. -/
def sampleOwnCreate : FileOp :=
  sampleContentOp .create "o1" "d2" "f1" 1 (some "a.md") (sampleVV "d2" 1) "one"

/-- The server with the note. -/
def sampleCreatedStore : Store :=
  (process samplePlatform 1 sampleUuid sampleOwnCreate (some "u") sampleStore).2

/-- The connection was lost before the ack came. -/
def sampleCreator : ClientHistory (Finset Write) where
  plugin :=
    { watcher :=
        { engine :=
            { index := { device := { deviceId := "d2", vaultId := some "v", nextDeviceSeq := 2 } }
              outbox := OutboxManager.create "d2" 2
                [{ op := sampleOwnCreate, status := .inflight, attempts := 1, queuedAt := 1
                   updatedAt := 1 }]
              vault := Table.empty.set ("a.md", encodeText "one") } } }

/-- The client gets its own op from the log of the server. -/
def sampleCaughtUpEvents : List (ClientEvent (Finset Write)) :=
  [.plugin (.receive 2 (.ops (sampleCreatedStore.listOps "v" 0 100) false)),
    .plugin (.resume 2 0)]

/-- The client after it renamed the note. -/
def sampleRenamed : ClientHistory (Finset Write) :=
  Run.final (clientStep samplePlatform writes sampleCreatorConfig) sampleCreator
    (sampleCaughtUpEvents ++
      [.plugin (.rename 3 (sampleId 2) (sampleId 3) "a.md" "b.md")])

/-- **The first rename of a note the client created is lost**: its clock is the one the server
gave the note.  The server takes the op and leaves the note where it was. -/
theorem not_laterRenameWins_ownCreate :
    ¬ Run.Throughout (clientStep samplePlatform writes sampleCreatorConfig)
        (LaterRenameWins samplePlatform sampleCreatorConfig) sampleCreator sampleCaughtUpEvents ∧
      ∃ entry ∈ sampleRenamed.engine.outbox.entries,
        entry.op.kind = .rename ∧ entry.op.newPath = some "b.md" ∧
          (accepted samplePlatform 3 sampleUuid entry.op (some "u") sampleCreatedStore).map
            (fun applied => applied.file.path) = some "a.md" := by
  refine ⟨?_, by decide +kernel⟩
  intro hwins
  have hcaught := laterRenameWins_iff_caughtUp.mp hwins.final
  have hseen : (Run.final (clientStep samplePlatform writes sampleCreatorConfig) sampleCreator
      sampleCaughtUpEvents).Seen "f1" { lamport := 1, deviceId := "d2" } := by
    left
    decide +kernel
  have hcovered := hcaught "f1" _ hseen
  revert hcovered
  decide +kernel

end ObsidianSync
