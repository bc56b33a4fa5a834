import ObsidianSync.Client.Ignore
import ObsidianSync.Client.VaultWatcher

/-!
# Reconciliation at startup

What changed while the plugin did not run is found by comparing the index with the files in
the vault.  A file that is gone and one that appeared with its hash are a rename; what is gone
otherwise was deleted.  The files of the vault are filtered by the ignore rules, and the
entries of the index are not.

## Main definitions

* `planReconciliation` — the loops that pair what is missing with what appears.
* `firstFit` — each file that appears takes the first missing entry with its hash.
* `VaultWatcher.reconcile` — the changes the watcher enqueues, by the plan.
* `SparesDisk` — a file that is still there is not deleted, and an ignored one not renamed.
* `Untouched` — the ignored files that are still there are left alone.

## Main results

* `renames_planReconciliation`, `mem_deletes_iff` — the plan by `firstFit`.
* `sparesDisk_iff_untouched` — **the files on disk are spared exactly where each ignored one
  that is indexed is open in a session, and no file that appears takes its entry.**
-/

namespace ObsidianSync

open Engine

/-! ### The plan -/

/-- A file of the vault, with the hash and size it would be stored under. -/
structure DiskFile where
  path : String
  contentHash : String
  size : ℕ
  deriving DecidableEq

/-- A file found at another path. -/
structure PlannedRename where
  fileId : String
  oldPath : String
  newPath : String
  contentHash : String
  deriving DecidableEq

/-- What is different on the disk, as the ops that say so. -/
structure ReconciliationPlan where
  creates : List DiskFile
  updates : List (FileIndexEntry × DiskFile)
  deletes : List FileIndexEntry
  renames : List PlannedRename

/-- The entries at paths without a file. -/
def missingEntries (indexed : List FileIndexEntry) (disk : List DiskFile) : List FileIndexEntry :=
  indexed.filter fun entry => !(disk.any fun file => file.path = entry.path)

/-- The files at paths without an entry. -/
def appearingFiles (indexed : List FileIndexEntry) (disk : List DiskFile) : List DiskFile :=
  disk.filter fun file => !(indexed.any fun entry => entry.path = file.path)

/-- `missingByHash.get(hash) ?? []`. -/
def missingByHash (missing : List FileIndexEntry) (hash : String) : List FileIndexEntry :=
  missing.filter fun entry => truthy entry.contentHash && entry.contentHash = some hash

/-- The variables of the loop that plans the renames. -/
structure RenameLoop where
  consumedMissing : List String := []
  consumedAppearing : List String := []
  renames : List PlannedRename := []

/-- The rename of an entry to the path of a file. -/
def renameTo (candidate : DiskFile) (entry : FileIndexEntry) : PlannedRename :=
  { fileId := entry.fileId, oldPath := entry.path, newPath := candidate.path
    contentHash := candidate.contentHash }

/-- The body of the loop. -/
def planRename (missing : List FileIndexEntry) (loop : RenameLoop) (candidate : DiskFile) :
    RenameLoop :=
  let found := (missingByHash missing candidate.contentHash).find? fun entry =>
    !(loop.consumedMissing.contains entry.path)
  match found with
  | none => loop
  | some entry =>
    { consumedMissing := loop.consumedMissing ++ [entry.path]
      consumedAppearing := loop.consumedAppearing ++ [candidate.path]
      renames := loop.renames ++ [renameTo candidate entry] }

/-- The ops that make the index what the disk is. -/
def planReconciliation (indexed : List FileIndexEntry) (disk : List DiskFile) :
    ReconciliationPlan :=
  let missing := missingEntries indexed disk
  let appearing := appearingFiles indexed disk
  let loop := appearing.foldl (planRename missing) {}
  let found := disk.filterMap fun file =>
    (indexed.reverse.find? fun entry => entry.path = file.path).map fun entry => (entry, file)
  { creates := appearing.filter fun file => !(loop.consumedAppearing.contains file.path)
    updates := found.filter fun pair =>
      pair.1.contentHash ≠ some pair.2.contentHash || pair.1.size ≠ pair.2.size
    deletes := missing.filter fun entry => !(loop.consumedMissing.contains entry.path)
    renames := loop.renames }

/-- Each file that appears takes the first missing entry with its hash, and with it all entries
at that path. -/
def firstFit : List FileIndexEntry → List DiskFile → List (DiskFile × FileIndexEntry)
  | _, [] => []
  | missing, file :: files =>
    match (missingByHash missing file.contentHash).head? with
    | none => firstFit missing files
    | some entry =>
      (file, entry) :: firstFit (missing.filter fun other => other.path ≠ entry.path) files

/-- The pairs of the plan. -/
def planPairs (indexed : List FileIndexEntry) (disk : List DiskFile) :
    List (DiskFile × FileIndexEntry) :=
  firstFit (missingEntries indexed disk) (appearingFiles indexed disk)

/-- The entries at paths that were not consumed. -/
def unconsumed (missing : List FileIndexEntry) (consumed : List String) : List FileIndexEntry :=
  missing.filter fun entry => !(consumed.contains entry.path)

/-- The loop takes the entries that `firstFit` takes of those that are left. -/
theorem foldl_planRename (missing : List FileIndexEntry) (files : List DiskFile)
    (loop : RenameLoop) :
    (files.foldl (planRename missing) loop).renames
        = loop.renames ++ ((firstFit (unconsumed missing loop.consumedMissing) files).map
            fun pair => renameTo pair.1 pair.2) ∧
      (files.foldl (planRename missing) loop).consumedMissing
        = loop.consumedMissing ++ (firstFit (unconsumed missing loop.consumedMissing) files).map
            fun pair => pair.2.path := by
  induction files generalizing loop with
  | nil => simp [firstFit]
  | cons file files ih =>
    have hfound : ((missingByHash missing file.contentHash).find? fun entry =>
          !(loop.consumedMissing.contains entry.path))
        = (missingByHash (unconsumed missing loop.consumedMissing) file.contentHash).head? := by
      rw [missingByHash, missingByHash, unconsumed, List.filter_filter, ← List.head?_filter,
        List.filter_filter]
      congr 2
      funext entry
      exact Bool.and_comm _ _
    rw [List.foldl_cons, firstFit, ← hfound]
    cases hentry : (missingByHash missing file.contentHash).find? fun entry =>
        !(loop.consumedMissing.contains entry.path) with
    | none =>
      have hstep : planRename missing loop file = loop := by simp only [planRename, hentry]
      rw [hstep]
      exact ih loop
    | some entry =>
      have hstep : planRename missing loop file
          = { consumedMissing := loop.consumedMissing ++ [entry.path]
              consumedAppearing := loop.consumedAppearing ++ [file.path]
              renames := loop.renames ++ [renameTo file entry] } := by
        simp only [planRename, hentry]
      have hleft : unconsumed missing (loop.consumedMissing ++ [entry.path])
          = (unconsumed missing loop.consumedMissing).filter fun other =>
              other.path ≠ entry.path := by
        rw [unconsumed, unconsumed, List.filter_filter]
        congr 1
        funext other
        simp [Bool.and_comm]
      obtain ⟨hrenames, hconsumed⟩ := ih
        { consumedMissing := loop.consumedMissing ++ [entry.path]
          consumedAppearing := loop.consumedAppearing ++ [file.path]
          renames := loop.renames ++ [renameTo file entry] }
      rw [hleft] at hrenames hconsumed
      rw [hstep]
      exact ⟨by rw [hrenames]; simp, by rw [hconsumed]; simp⟩

/-- **The renames of the plan are the pairs of `firstFit`.** -/
theorem renames_planReconciliation (indexed : List FileIndexEntry) (disk : List DiskFile) :
    (planReconciliation indexed disk).renames
      = (planPairs indexed disk).map fun pair => renameTo pair.1 pair.2 := by
  have hloop := (foldl_planRename (missingEntries indexed disk) (appearingFiles indexed disk) {}).1
  simp only [unconsumed, List.contains_nil, Bool.not_false, List.filter_true,
    List.nil_append] at hloop
  exact hloop

/-- What is deleted is missing, and no pair has its path. -/
theorem mem_deletes_iff {indexed : List FileIndexEntry} {disk : List DiskFile}
    {entry : FileIndexEntry} :
    entry ∈ (planReconciliation indexed disk).deletes ↔
      entry ∈ missingEntries indexed disk ∧
        ∀ pair ∈ planPairs indexed disk, pair.2.path ≠ entry.path := by
  have hloop := (foldl_planRename (missingEntries indexed disk) (appearingFiles indexed disk) {}).2
  simp only [unconsumed, List.contains_nil, Bool.not_false, List.filter_true,
    List.nil_append] at hloop
  simp only [planReconciliation, List.mem_filter, hloop, planPairs, Bool.not_eq_true',
    List.contains_eq_mem, List.mem_map, decide_eq_false_iff_not, not_exists, not_and, ne_eq]

theorem mem_of_mem_firstFit {missing : List FileIndexEntry} {files : List DiskFile}
    {pair : DiskFile × FileIndexEntry} (h : pair ∈ firstFit missing files) :
    pair.2 ∈ missing := by
  induction files generalizing missing with
  | nil => simp [firstFit] at h
  | cons file files ih =>
    rw [firstFit] at h
    split at h
    · exact ih h
    · next entry hentry =>
      rcases List.mem_cons.mp h with rfl | h
      · exact List.mem_of_mem_filter (List.mem_of_mem_head? hentry)
      · exact List.mem_of_mem_filter (ih h)

/-! ### The watcher -/

/-- The watcher, and what it enqueued. -/
structure Enqueued where
  watcher : VaultWatcher
  drafts : List FileOpDraft := []

/-- One more op goes into the outbox. -/
def Enqueued.enqueue (now : Time) (opId : Uuid) (draft : FileOpDraft) (e : Engine)
    (done : Enqueued) : Enqueued :=
  { watcher := { done.watcher with engine := enqueueLocalChange now opId draft e }
    drafts := done.drafts ++ [draft] }

/-- What the loops of `reconcile` go through. -/
inductive ReconcileItem
  | rename (rename : PlannedRename)
  | sync (path : String)
  | delete (entry : FileIndexEntry)

/-- The loops, one after the other. -/
def ReconciliationPlan.items (plan : ReconciliationPlan) : List ReconcileItem :=
  plan.renames.map .rename ++ plan.creates.map (fun file => .sync file.path) ++
    plan.updates.map (fun pair => .sync pair.2.path) ++ plan.deletes.map .delete

namespace VaultWatcher

variable (P : Platform) (cfg : ClientConfig) (w : VaultWatcher)

/-- The files of the vault that are not ignored. -/
def diskFiles : List DiskFile :=
  let listed := w.engine.vault.rows.filter fun row => !(cfg.ignores row.1)
  listed.filterMap fun row =>
    (hashPath P cfg w.engine.vault row.1).map fun contentHash =>
      { path := row.1, contentHash, size := row.2.length }

/-- The entries that are not deleted. -/
def indexed : List FileIndexEntry := w.engine.index.files.rows.filter fun entry => !entry.deleted

/-- The op of `syncPath`, if it enqueues one. -/
def syncDraft (fileId : Uuid) (path : String) : Option FileOpDraft :=
  if w.isRealtimeActivePath path || cfg.ignores path || !w.engine.vault.contains path then none
  else
    let entry := w.engine.index.byPath path
    makeContentOp P cfg w.engine ((entry.map FileIndexEntry.fileId).getD fileId.1) path
      ((entry.map FileIndexEntry.type).getD (classifyFileType path))

/-- `syncPath` enqueues its op. -/
theorem syncPath_eq (now : Time) (opId fileId : Uuid) (path : String) :
    w.syncPath P cfg now opId fileId path
      = (w.syncDraft P cfg fileId path).elim w fun draft =>
          { w with engine := enqueueLocalChange now opId draft w.engine } := by
  unfold syncPath syncDraft Engine.syncPath
  cases w.isRealtimeActivePath path with
  | true => rfl
  | false =>
    simp only [Bool.false_eq_true, if_false, Bool.false_or]
    split
    · rfl
    · split <;> simp_all

/-- A step of the loops, with the ids a new op and a new file get. -/
def reconcileItem (now : Time) (fresh : Uuid × Uuid) (done : Enqueued) :
    ReconcileItem → Enqueued
  | .rename rename =>
    let (draft, e) := makeRenameOp cfg rename.fileId rename.newPath
      (classifyFileType rename.newPath) done.watcher.engine
    done.enqueue now fresh.1 draft e
  | .sync path =>
    match done.watcher.syncDraft P cfg fresh.2 path with
    | none => done
    | some draft => done.enqueue now fresh.1 draft done.watcher.engine
  | .delete entry =>
    -- an open note is left to its room
    if done.watcher.isRealtimeActiveFile entry.fileId then done
    else
      let found := done.watcher.engine.index.byFileId entry.fileId
      let (draft, e) := makeDeleteOp cfg entry.fileId
        ((found.map FileIndexEntry.type).getD .note) done.watcher.engine
      done.enqueue now fresh.1 draft e

/-- The ops for what changed while the plugin was not running. -/
def reconcile (now : Time) (fresh : ℕ → Uuid × Uuid) : Enqueued :=
  if w.engine.suspended then { watcher := w }
  else
    let plan := planReconciliation w.indexed (w.diskFiles P cfg)
    plan.items.zipIdx.foldl
      (fun done item => reconcileItem P cfg now (fresh item.2) done item.1) { watcher := w }

/-! ### What the loops enqueue -/

/-- The rename or delete of an item. -/
def moveOf : ReconcileItem → Option (OpKind × String)
  | .rename rename => some (.rename, rename.fileId)
  | .sync _ => none
  | .delete entry =>
    if w.isRealtimeActiveFile entry.fileId then none else some (.delete, entry.fileId)

end VaultWatcher

/-- The renames and deletes that were enqueued, by the file. -/
def moves (drafts : List FileOpDraft) : List (OpKind × String) :=
  (drafts.filter fun draft => draft.kind = .rename ∨ draft.kind = .delete).map fun draft =>
    (draft.kind, draft.fileId)

theorem moves_append (drafts drafts' : List FileOpDraft) :
    moves (drafts ++ drafts') = moves drafts ++ moves drafts' := by
  simp only [moves, List.filter_append, List.map_append]

namespace VaultWatcher

variable (P : Platform) (cfg : ClientConfig) (w : VaultWatcher)

theorem kind_syncDraft {fileId : Uuid} {path : String} {draft : FileOpDraft}
    (h : w.syncDraft P cfg fileId path = some draft) :
    draft.kind = .update ∨ draft.kind = .create := by
  unfold syncDraft at h
  split at h
  · cases h
  · unfold makeContentOp at h
    dsimp only at h
    split at h
    · cases h
    · obtain rfl := Option.some.inj h
      dsimp only
      split
      · exact Or.inl rfl
      · exact Or.inr rfl

/-- An item leaves the sessions alone, and enqueues its rename or delete. -/
theorem reconcileItem_spec (now : Time) (fresh : Uuid × Uuid) (done : Enqueued)
    (item : ReconcileItem) :
    (reconcileItem P cfg now fresh done item).watcher.sessions = done.watcher.sessions ∧
      moves (reconcileItem P cfg now fresh done item).drafts
        = moves done.drafts ++ (done.watcher.moveOf item).toList := by
  cases item with
  | rename rename => exact ⟨rfl, moves_append _ _⟩
  | sync path =>
    cases hdraft : done.watcher.syncDraft P cfg fresh.2 path with
    | none => simp [reconcileItem, hdraft, moveOf]
    | some draft =>
      simp only [reconcileItem, hdraft]
      refine ⟨rfl, ?_⟩
      have hnone : moves [draft] = [] := by
        rcases kind_syncDraft P cfg _ hdraft with hkind | hkind <;> simp [moves, hkind]
      simp only [Enqueued.enqueue, moves_append, hnone, moveOf, Option.toList_none]
  | delete entry =>
    cases hactive : done.watcher.isRealtimeActiveFile entry.fileId with
    | true => simp [reconcileItem, moveOf, hactive]
    | false =>
      simp only [reconcileItem, moveOf, hactive, Bool.false_eq_true, if_false]
      exact ⟨rfl, moves_append _ _⟩

/-- The loops enqueue the renames and deletes of their items. -/
theorem moves_foldl (now : Time) (fresh : ℕ → Uuid × Uuid)
    (items : List (ReconcileItem × ℕ)) (done : Enqueued) :
    moves (items.foldl
        (fun done item => reconcileItem P cfg now (fresh item.2) done item.1) done).drafts
      = moves done.drafts ++ (items.map Prod.fst).filterMap done.watcher.moveOf := by
  induction items generalizing done with
  | nil => simp
  | cons item items ih =>
    obtain ⟨hsessions, hmoves⟩ := reconcileItem_spec P cfg now (fresh item.2) done item.1
    have hactive : (reconcileItem P cfg now (fresh item.2) done item.1).watcher.isRealtimeActiveFile
        = done.watcher.isRealtimeActiveFile := by
      funext fileId
      rw [isRealtimeActiveFile, hsessions, isRealtimeActiveFile]
    have hmoveOf : (reconcileItem P cfg now (fresh item.2) done item.1).watcher.moveOf
        = done.watcher.moveOf := by
      unfold moveOf
      rw [hactive]
    rw [List.foldl_cons, ih, hmoves, hmoveOf, List.map_cons, List.filterMap_cons,
      List.append_assoc]
    cases done.watcher.moveOf item.1 <;> rfl

/-- `reconcile` enqueues the renames of the plan, and its deletes of files without a session. -/
theorem mem_moves_reconcile (now : Time) (fresh : ℕ → Uuid × Uuid)
    (hlistening : w.engine.suspended = false) (kind : OpKind) (fileId : String) :
    (kind, fileId) ∈ moves (w.reconcile P cfg now fresh).drafts ↔
      (kind = .rename ∧ ∃ pair ∈ planPairs w.indexed (w.diskFiles P cfg),
        pair.2.fileId = fileId) ∨
      (kind = .delete ∧ ∃ entry ∈ (planReconciliation w.indexed (w.diskFiles P cfg)).deletes,
        w.isRealtimeActiveFile entry.fileId = false ∧ entry.fileId = fileId) := by
  have hmoves : moves (w.reconcile P cfg now fresh).drafts
      = (planReconciliation w.indexed (w.diskFiles P cfg)).items.filterMap w.moveOf := by
    simp only [reconcile, hlistening, Bool.false_eq_true, if_false, moves_foldl,
      List.zipIdx_map_fst]
    rfl
  have hrename : ∀ pair : DiskFile × FileIndexEntry,
      w.moveOf (.rename (renameTo pair.1 pair.2)) = some (kind, fileId) ↔
        kind = .rename ∧ pair.2.fileId = fileId := by
    intro pair
    simp only [moveOf, renameTo, Option.some.injEq, Prod.mk.injEq]
    exact ⟨fun h => ⟨h.1.symm, h.2⟩, fun h => ⟨h.1.symm, h.2⟩⟩
  have hdelete : ∀ entry : FileIndexEntry,
      w.moveOf (.delete entry) = some (kind, fileId) ↔
        kind = .delete ∧ w.isRealtimeActiveFile entry.fileId = false ∧ entry.fileId = fileId := by
    intro entry
    simp only [moveOf]
    cases w.isRealtimeActiveFile entry.fileId <;> simp [eq_comm]
  rw [hmoves, List.mem_filterMap]
  simp only [ReconciliationPlan.items, renames_planReconciliation, List.mem_append, List.mem_map]
  constructor
  · rintro ⟨item, ((⟨_, ⟨pair, hpair, rfl⟩, rfl⟩ | ⟨file, hfile, rfl⟩) | ⟨pair, hpair, rfl⟩) |
      ⟨entry, hentry, rfl⟩, hmove⟩
    · obtain ⟨hkind, hid⟩ := (hrename pair).mp hmove
      exact Or.inl ⟨hkind, pair, hpair, hid⟩
    · cases hmove
    · cases hmove
    · obtain ⟨hkind, hactive, hid⟩ := (hdelete entry).mp hmove
      exact Or.inr ⟨hkind, entry, hentry, hactive, hid⟩
  · rintro (⟨hkind, pair, hpair, hid⟩ | ⟨hkind, entry, hentry, hactive, hid⟩)
    · exact ⟨_, Or.inl (Or.inl (Or.inl ⟨_, ⟨pair, hpair, rfl⟩, rfl⟩)),
        (hrename pair).mpr ⟨hkind, hid⟩⟩
    · exact ⟨_, Or.inr ⟨entry, hentry, rfl⟩, (hdelete entry).mpr ⟨hkind, hactive, hid⟩⟩

end VaultWatcher

/-! ### The files that are still there -/

/-- A listed file has a hash. -/
theorem isSome_hashPath {P : Platform} {cfg : ClientConfig} {vault : Vault} {path : String}
    (h : vault.contains path = true) : (hashPath P cfg vault path).isSome = true := by
  obtain ⟨row, hrow⟩ := Option.isSome_iff_exists.mp h
  unfold hashPath readPlaintextBytes Vault.readBytes
  rw [hrow]
  split
  · split <;> rfl
  · split <;> rfl

/-- The paths of `diskFiles` are those of the vault that are not ignored. -/
theorem any_diskFiles_iff {P : Platform} {cfg : ClientConfig} {w : VaultWatcher} {path : String} :
    ((w.diskFiles P cfg).any fun file => file.path = path) = true ↔
      w.engine.vault.contains path = true ∧ cfg.ignores path = false := by
  simp only [List.any_eq_true, VaultWatcher.diskFiles, List.mem_filterMap, List.mem_filter,
    Option.map_eq_some_iff, decide_eq_true_eq, Bool.not_eq_true']
  constructor
  · rintro ⟨file, ⟨row, ⟨hrow, hignored⟩, hash, hhash, rfl⟩, rfl⟩
    have hget : w.engine.vault.get? row.1 = some row := Table.get?_key hrow
    exact ⟨by rw [Vault.contains, hget]; rfl, hignored⟩
  · rintro ⟨hcontains, hignored⟩
    have hhashed : (hashPath P cfg w.engine.vault path).isSome = true := isSome_hashPath hcontains
    obtain ⟨hash, hhash⟩ := Option.isSome_iff_exists.mp hhashed
    obtain ⟨row, hrow⟩ := Option.isSome_iff_exists.mp hcontains
    obtain rfl : row.1 = path := Table.key_of_get? hrow
    exact ⟨_, ⟨row, ⟨Table.mem_of_get? hrow, hignored⟩, hash, hhash, rfl⟩, rfl⟩

/-- What is missing is not in the vault, or ignored. -/
theorem mem_missingEntries_iff {P : Platform} {cfg : ClientConfig} {w : VaultWatcher}
    {entry : FileIndexEntry} :
    entry ∈ missingEntries w.indexed (w.diskFiles P cfg) ↔
      entry ∈ w.indexed ∧
        (w.engine.vault.contains entry.path = true → cfg.ignores entry.path = true) := by
  rw [missingEntries, List.mem_filter, Bool.not_eq_true', ← Bool.not_eq_true, any_diskFiles_iff,
    not_and, Bool.not_eq_false]

/-- A delete is enqueued only for an indexed file that is not in the vault, and neither a
delete nor a rename for one that is in the vault and ignored. -/
structure SparesDisk (cfg : ClientConfig) (w : VaultWatcher) (drafts : List FileOpDraft) :
    Prop where
  deletes : ∀ draft ∈ drafts, draft.kind = .delete →
    ∃ entry ∈ w.indexed, entry.fileId = draft.fileId ∧
      w.engine.vault.contains entry.path = false
  ignored : ∀ entry ∈ w.indexed, w.engine.vault.contains entry.path = true →
    cfg.ignores entry.path = true → ∀ draft ∈ drafts, draft.fileId = entry.fileId →
      draft.kind ≠ .delete ∧ draft.kind ≠ .rename

/-- Each indexed file that is in the vault and ignored is open in a session, and it is not the
first one left with the hash of a file that appears. -/
def Untouched (P : Platform) (cfg : ClientConfig) (w : VaultWatcher) : Prop :=
  ∀ entry ∈ w.indexed, w.engine.vault.contains entry.path = true →
    cfg.ignores entry.path = true →
      w.isRealtimeActiveFile entry.fileId = true ∧
        ∀ pair ∈ planPairs w.indexed (w.diskFiles P cfg), pair.2 ≠ entry

theorem mem_moves_iff {drafts : List FileOpDraft} {kind : OpKind} {fileId : String}
    (hkind : kind = .rename ∨ kind = .delete) :
    (kind, fileId) ∈ moves drafts ↔ ∃ draft ∈ drafts, draft.kind = kind ∧
      draft.fileId = fileId := by
  simp only [moves, List.mem_map, List.mem_filter, decide_eq_true_eq, Prod.mk.injEq]
  constructor
  · rintro ⟨draft, ⟨hdraft, -⟩, heq⟩
    exact ⟨draft, hdraft, heq⟩
  · rintro ⟨draft, hdraft, rfl, hid⟩
    exact ⟨draft, ⟨hdraft, hkind⟩, rfl, hid⟩

/-- The entries of the index have an id each. -/
theorem eq_of_fileId_eq {w : VaultWatcher} {entry entry' : FileIndexEntry}
    (h : entry ∈ w.indexed) (h' : entry' ∈ w.indexed) (hid : entry.fileId = entry'.fileId) :
    entry = entry' :=
  Table.eq_of_key_eq (List.mem_of_mem_filter h) (List.mem_of_mem_filter h') hid

/-- Where the ignored files are untouched, the loops spare the disk. -/
theorem sparesDisk_of_untouched {P : Platform} {cfg : ClientConfig} {w : VaultWatcher}
    (hlistening : w.engine.suspended = false) (huntouched : Untouched P cfg w) (now : Time)
    (fresh : ℕ → Uuid × Uuid) :
    SparesDisk cfg w (w.reconcile P cfg now fresh).drafts := by
  have hmoves := w.mem_moves_reconcile P cfg now fresh hlistening
  -- a delete is of an entry that is not in the vault
  have hgone : ∀ draft ∈ (w.reconcile P cfg now fresh).drafts, draft.kind = .delete →
      ∃ entry ∈ w.indexed, entry.fileId = draft.fileId ∧
        w.engine.vault.contains entry.path = false := by
    intro draft hdraft hkind
    have hmem := (mem_moves_iff (Or.inr rfl)).mpr ⟨draft, hdraft, hkind, rfl⟩
    rcases (hmoves _ _).mp hmem with ⟨hrename, -⟩ | ⟨-, entry, hentry, hidle, hid⟩
    · cases hrename
    · obtain ⟨hindexed, hignored⟩ := mem_missingEntries_iff.mp (mem_deletes_iff.mp hentry).1
      refine ⟨entry, hindexed, hid, ?_⟩
      by_contra hthere
      rw [Bool.not_eq_false] at hthere
      have hactive := (huntouched entry hindexed hthere (hignored hthere)).1
      rw [hidle] at hactive
      cases hactive
  refine ⟨hgone, ?_⟩
  intro entry hentry hthere hignored draft hdraft hid
  constructor
  · intro hkind
    obtain ⟨entry', hentry', hid', hgone'⟩ := hgone draft hdraft hkind
    obtain rfl := eq_of_fileId_eq hentry' hentry (hid'.trans hid)
    rw [hthere] at hgone'
    cases hgone'
  · intro hkind
    have hmem := (mem_moves_iff (Or.inl rfl)).mpr ⟨draft, hdraft, hkind, rfl⟩
    rcases (hmoves _ _).mp hmem with ⟨-, pair, hpair, hid'⟩ | ⟨hdelete, -⟩
    · have hindexed := (mem_missingEntries_iff.mp (mem_of_mem_firstFit hpair)).1
      exact (huntouched entry hentry hthere hignored).2 pair hpair
        (eq_of_fileId_eq hindexed hentry (hid'.trans hid))
    · cases hdelete

/-- Where the loops spare the disk, the ignored files are untouched. -/
theorem untouched_of_sparesDisk {P : Platform} {cfg : ClientConfig} {w : VaultWatcher}
    (hlistening : w.engine.suspended = false) {now : Time} {fresh : ℕ → Uuid × Uuid}
    (hspares : SparesDisk cfg w (w.reconcile P cfg now fresh).drafts) : Untouched P cfg w := by
  have hmoves := w.mem_moves_reconcile P cfg now fresh hlistening
  -- no pair takes an ignored file
  have hpairs : ∀ entry ∈ w.indexed, w.engine.vault.contains entry.path = true →
      cfg.ignores entry.path = true →
        ∀ pair ∈ planPairs w.indexed (w.diskFiles P cfg), pair.2 ≠ entry := by
    rintro _ hentry hthere hignored pair hpair rfl
    obtain ⟨draft, hdraft, hkind, hid⟩ := (mem_moves_iff (Or.inl rfl)).mp
      ((hmoves .rename pair.2.fileId).mpr (Or.inl ⟨rfl, pair, hpair, rfl⟩))
    exact (hspares.ignored pair.2 hentry hthere hignored draft hdraft hid).2 hkind
  intro entry hentry hthere hignored
  refine ⟨?_, hpairs entry hentry hthere hignored⟩
  by_contra hidle
  rw [Bool.not_eq_true] at hidle
  -- so none takes its path, and it is deleted
  have hdeleted : entry ∈ (planReconciliation w.indexed (w.diskFiles P cfg)).deletes := by
    refine mem_deletes_iff.mpr ⟨mem_missingEntries_iff.mpr ⟨hentry, fun _ => hignored⟩, ?_⟩
    intro pair hpair hpath
    have hindexed := (mem_missingEntries_iff.mp (mem_of_mem_firstFit hpair)).1
    exact hpairs pair.2 hindexed (by rw [hpath]; exact hthere) (by rw [hpath]; exact hignored)
      pair hpair rfl
  obtain ⟨draft, hdraft, hkind, hid⟩ := (mem_moves_iff (Or.inr rfl)).mp
    ((hmoves .delete entry.fileId).mpr (Or.inr ⟨rfl, entry, hdeleted, hidle, rfl⟩))
  exact (hspares.ignored entry hentry hthere hignored draft hdraft hid).1 hkind

/-- **The files on disk are spared exactly where the watcher is suspended, or each indexed file
that is ignored is open in a session and not taken by a file that appears.** -/
theorem sparesDisk_iff_untouched (P : Platform) (cfg : ClientConfig) (ignore : SyncIgnore)
    (w : VaultWatcher) (now : Time) (fresh : ℕ → Uuid × Uuid) :
    SparesDisk { cfg with ignores := ignore.ignores P } w
        (w.reconcile P { cfg with ignores := ignore.ignores P } now fresh).drafts ↔
      w.engine.suspended = true ∨ Untouched P { cfg with ignores := ignore.ignores P } w := by
  cases hsuspended : w.engine.suspended with
  | true =>
    have hnothing : (w.reconcile P { cfg with ignores := ignore.ignores P } now fresh).drafts
        = [] := by
      simp only [VaultWatcher.reconcile, hsuspended, if_true]
    rw [hnothing]
    exact ⟨fun _ => Or.inl rfl, fun _ => ⟨by simp, by simp⟩⟩
  | false =>
    constructor
    · intro hspares
      exact Or.inr (untouched_of_sparesDisk hsuspended hspares)
    · rintro (h | huntouched)
      · cases h
      · exact sparesDisk_of_untouched hsuspended huntouched now fresh

/-! ### A directory that is ignored later -/

/-- A device with a note that was synced. -/
def sampleSynced : VaultWatcher where
  engine :=
    { index :=
        { device := { deviceId := "d3", vaultId := some "v" }
          files := Table.empty.set
            { fileId := "f1", path := "private/a.md", pathNormalized := "private/a.md"
              type := .note, contentHash := some "one", size := 3
              appliedContentVV := sampleVV "d3" 1, isDir := false, mtime := 1 } }
      outbox := OutboxManager.create "d3" 2 []
      vault := Table.empty.set ("private/a.md", encodeText "one") }

/-- The rule that is added. -/
def samplePrivate : SyncIgnore :=
  (SyncIgnore.create [] []).add (globRule "private/".toList false true)

/-- **A note that is ignored from now on is deleted**, though it is on disk. -/
theorem not_sparesDisk_ignored :
    sampleSynced.engine.vault.contains "private/a.md" = true ∧
      (SyncIgnore.create [] []).ignores samplePlatform "private/a.md" = false ∧
      samplePrivate.ignores samplePlatform "private/a.md" = true ∧
      ¬ SparesDisk { sampleConfig with ignores := samplePrivate.ignores samplePlatform }
        sampleSynced
        (sampleSynced.reconcile samplePlatform
          { sampleConfig with ignores := samplePrivate.ignores samplePlatform } 2
          fun _ => (sampleId 1, sampleId 2)).drafts := by
  refine ⟨by decide, by decide +kernel, by decide +kernel, fun hspares => ?_⟩
  have hdeleted : (OpKind.delete, "f1") ∈ moves
      (sampleSynced.reconcile samplePlatform
        { sampleConfig with ignores := samplePrivate.ignores samplePlatform } 2
        fun _ => (sampleId 1, sampleId 2)).drafts := by decide +kernel
  obtain ⟨draft, hdraft, hkind, -⟩ := (mem_moves_iff (Or.inr rfl)).mp hdeleted
  obtain ⟨entry, hentry, -, hgone⟩ := hspares.deletes draft hdraft hkind
  have hthere : ∀ entry ∈ sampleSynced.indexed,
      sampleSynced.engine.vault.contains entry.path = true := by decide
  rw [hthere entry hentry] at hgone
  cases hgone

end ObsidianSync
